import Mahoquot.Compat.Utf8

/-! The messages of a request between the Anthropic and the OpenAI shape, and whether tool
results stay with their calls. What a turn says is put before its tool results. -/

set_option autoImplicit false

namespace Mahoquot.Compat
open Library Value String

section ToOpenai
variable (serde : Serde)

def roleOf (message : Value) : String :=
  ((message.get "role").bind asStr).getD "user"

def systemToText : Value → Option String
  | .string text => some text
  | .array items => some (join (items.filterMap fun item => (item.get "text").bind asStr))
  | _ => none

def isBase64 (source : Value) : Bool := (source.index "type").isStr "base64"

def imageUrl (source : Value) : Value :=
  let mediaType := ((source.index "media_type").asStr).getD "application/octet-stream"
  let data := ((source.index "data").asStr).getD ""
  .obj [("type", .string "image_url"),
    ("image_url", .obj [("url", .string ("data:" ++ mediaType ++ ";base64," ++ data))])]

/-- What the blocks of a turn are sorted into. -/
structure TurnParts where
  textParts : List String
  imageParts : List Value
  toolCalls : List Value
  toolResults : List Value
  thinkingParts : List String
  signature : Option String
  redacted : Bool
deriving DecidableEq

def TurnParts.empty : TurnParts := ⟨[], [], [], [], [], none, false⟩

variable (block : Value)

def toolCall : Value :=
  let input := (block.get "input").getD (.obj [])
  .obj [("id", .string (((block.get "id").bind asStr).getD "")), ("type", .string "function"),
    ("function", .obj [("name", .string (((block.get "name").bind asStr).getD "")),
      ("arguments", .string (serde.toString input))])]

def toolResultItem (item : Value) : Value :=
  match (item.index "type").asStr with
  | some "image" => if isBase64 (item.index "source") then imageUrl (item.index "source") else item
  | _ => item

def toolResultId : String :=
  ((block.get "tool_use_id").bind asStr).getD ""

def toolResultContent : Value := (block.get "content").getD (.string "")

def toolResultOutput : Value → Value
  | .array items => .array (items.map toolResultItem)
  | other => other

def toolResult : Value :=
  let result := obj [("role", .string "tool"), ("tool_call_id", .string (toolResultId block)),
    ("content", toolResultOutput (toolResultContent block)),
    ("x_anthropic_tool_result", .bool true)]
  let result :=
    match block.get "cache_control" with
    | some cacheControl => result.set "cache_control" cacheControl
    | none => result
  match (block.get "is_error").bind asBool with
  | some isError => result.set "is_error" (.bool isError)
  | none => result

def blockType : Option String := (block.get "type").bind asStr

def addBlock (parts : TurnParts) (block : Value) : TurnParts :=
  match blockType block with
  | some "text" =>
    { parts with
      textParts := parts.textParts ++ ((block.get "text").bind asStr).toList }
  | some "image" =>
    if isBase64 (block.index "source") then
      { parts with imageParts := parts.imageParts ++ [imageUrl (block.index "source")] }
    else parts
  | some "thinking" =>
    { parts with
      thinkingParts := parts.thinkingParts ++ ((block.get "thinking").bind asStr).toList
      signature := ((block.get "signature").bind asStr).or parts.signature }
  | some "redacted_thinking" =>
    { parts with
      redacted := true
      signature := ((block.get "data").bind asStr).or parts.signature }
  | some "tool_use" => { parts with toolCalls := parts.toolCalls ++ [toolCall serde block] }
  | some "tool_result" => { parts with toolResults := parts.toolResults ++ [toolResult block] }
  | _ => parts

def turnParts (message : Value) : TurnParts :=
  match message.get "content" with
  | some (.string text) => { TurnParts.empty with textParts := [text] }
  | some (.array blocks) => blocks.foldl (addBlock serde) .empty
  | _ => .empty

def assistantMessage (parts : TurnParts) : Value :=
  let message := obj [("role", .string "assistant"),
    ("content", .string (join parts.textParts))]
  let message :=
    if parts.toolCalls.isEmpty then message
    else message.set "tool_calls" (.array parts.toolCalls)
  let message :=
    if parts.thinkingParts.isEmpty then message
    else message.set "reasoning_content" (.string (join parts.thinkingParts))
  let message :=
    match parts.signature with
    | some signature => message.set "reasoning_signature" (.string signature)
    | none => message
  if parts.redacted then message.set "reasoning_redacted" (.bool true) else message

def callingMessage (parts : TurnParts) : Value :=
  .obj [("role", .string "assistant"), ("content", .string (join parts.textParts)),
    ("tool_calls", .array parts.toolCalls)]

def plainMessage (role : String) (parts : TurnParts) : Value :=
  let content :=
    if parts.imageParts.isEmpty then .string (join parts.textParts)
    else
      let text :=
        if parts.textParts.isEmpty then []
        else [.obj [("type", .string "text"), ("text", .string (join parts.textParts))]]
      array (text ++ parts.imageParts)
  .obj [("role", .string role), ("content", content)]

def spokenMessage (role : String) (parts : TurnParts) : Option Value :=
  if role = "assistant" ∧ (parts.toolCalls.isEmpty = false ∨ parts.thinkingParts.isEmpty = false ∨
      parts.signature.isSome = true ∨ parts.redacted = true) then some (assistantMessage parts)
  else if parts.toolCalls.isEmpty = false then some (callingMessage parts)
  else if parts.textParts.isEmpty = false ∨ parts.imageParts.isEmpty = false then
    some (plainMessage role parts)
  else none

/-- One round of the loop over the turns. The tool results come last. -/
def turnMessages (message : Value) : List Value :=
  let parts := turnParts serde message
  (spokenMessage (roleOf message) parts).toList ++ parts.toolResults

def anthropicToOpenai (body : Value) : Except String (List Value) :=
  match (body.get "model").bind asStr with
  | none => .error "missing model"
  | some _ =>
    match (body.get "messages").bind asArray with
    | none => .error "missing messages"
    | some messages =>
      let system :=
        match (body.get "system").bind systemToText with
        | some text =>
          if text.isEmpty then []
          else [.obj [("role", .string "system"), ("content", .string text)]]
        | none => []
      .ok (system ++ messages.flatMap (turnMessages serde))

end ToOpenai

/-- A message as it is built: its content is a list of blocks. -/
structure AnthropicMessage where
  role : String
  content : List Value
deriving DecidableEq

def splitDataUrl (url : String) : Option (String × String) :=
  (Text.stripPrefix? "data:" url).bind (Text.splitAt? ";base64,")

def claudeImageTypes : List String := ["image/png", "image/jpeg", "image/gif", "image/webp"]

def contentText : Value → Option String
  | .string text => some text
  | .array parts =>
    some (join ((parts.filter fun part => (part.index "type").isStr "text").filterMap
      fun part => (part.index "text").asStr))
  | _ => none

def isObject : Value → Bool
  | .object _ => true
  | _ => false

def imageBlock (part : Value) : Except String Value :=
  match ((part.index "image_url").index "url").asStr.or (part.index "image_url").asStr with
  | none => .error "image_url.url must be a string: unsupported media"
  | some url =>
    match splitDataUrl url with
    | some (mediaType, payload) =>
      if claudeImageTypes.contains mediaType then
        .ok (.obj [("type", .string "image"), ("source", .obj [("type", .string "base64"),
          ("media_type", .string mediaType), ("data", .string payload)])])
      else .error ("unsupported image media type " ++ mediaType ++ ": unsupported media")
    | none =>
      if Text.startsWith "https://" url || Text.startsWith "http://" url then
        .ok (.obj [("type", .string "image"), ("source", .obj [("type", .string "url"), ("url", .string url)])])
      else .error "image_url must be a data URL or http(s) URL: unsupported media"

section Blocks

-- The decoder of Base64 texts is given.
variable (decodeBase64 : String → Option Bytes)

def documentBlock (part : Value) : Except String Value :=
  let file := part.index "file"
  match (file.index "file_data").asStr with
  | none => .error "file.file_data must be a data URL string: unsupported media"
  | some dataUrl =>
    match splitDataUrl dataUrl with
    | none => .error "file.file_data must be a base64 data URL: unsupported media"
    | some (mediaType, payload) =>
      let source : Except String Value :=
        if mediaType = "application/pdf" then
          .ok (.obj [("type", .string "base64"), ("media_type", .string mediaType), ("data", .string payload)])
        else if mediaType = "text/plain" then
          match decodeBase64 payload with
          | none => .error "file.file_data is not valid base64: unsupported media"
          | some raw =>
            match fromUtf8 raw with
            | .error _ => .error "text document is not UTF-8: unsupported media"
            | .ok text =>
              .ok (.obj [("type", .string "text"), ("media_type", .string mediaType),
                ("data", .string (ofList text))])
        else
          .error ("unsupported document media type " ++ mediaType ++ ": unsupported media")
      source.map fun source =>
        let document := obj [("type", .string "document"), ("source", source)]
        match (file.index "filename").asStr with
        | some name => document.set "title" (.string name)
        | none => document

def contentBlock (part : Value) : Except String Value :=
  match (part.index "type").asStr with
  | some "text" =>
    .ok (.obj [("type", .string "text"), ("text", .string (((part.index "text").asStr).getD ""))])
  | some "image_url" => imageBlock part
  | some "file" => documentBlock decodeBase64 part
  | some "image" => .ok part
  | some "document" => .ok part
  | some "tool_result" => .ok part
  | some "tool_use" => .ok part
  | some other => .error ("unsupported content part type " ++ other ++ ": unsupported media")
  | none => .error "content part missing type: unsupported media"

def withCacheControl (source block : Value) : Value :=
  match (source.get "cache_control").filter isObject with
  | some cacheControl => block.set "cache_control" cacheControl
  | none => block

def openaiContentToAnthropic (part : Value) : Except String Value :=
  (contentBlock decodeBase64 part).map (withCacheControl part)

def anthropicToolName (name : String) : String :=
  if Text.startsWith "custom_" name ||
      ["web_search", "code_execution", "text_editor", "computer"].contains name then name
  else "custom_" ++ name

/-- What a translation has so far: the system blocks and the messages. -/
structure Translation where
  system : List Value
  out : List AnthropicMessage
deriving DecidableEq

def Translation.pushSystem (translation : Translation) (message : Value) : Translation :=
  match (message.get "content").bind contentText with
  | none => translation
  | some text =>
    let block := withCacheControl message
      (.obj [("type", .string "text"), ("text", .string text)])
    if translation.out.isEmpty then
      { translation with system := translation.system ++ [block] }
    else { translation with out := translation.out ++ [⟨"user", [block]⟩] }

/-- A tool result goes to the user message it follows, or begins one. -/
def pushResult (out : List AnthropicMessage) (block : Value) : List AnthropicMessage :=
  match out.getLast? with
  | some last =>
    if last.role = "user" then out.dropLast ++ [{ last with content := last.content ++ [block] }]
    else out ++ [⟨"user", [block]⟩]
  | none => [⟨"user", [block]⟩]

def resultContent (message : Value) : Except String Value :=
  match message.get "content" with
  | some (.array parts) => (parts.mapM (openaiContentToAnthropic decodeBase64)).map .array
  | some content => .ok content
  | none => .ok (.string "")

def resultBlock (message content : Value) : Value :=
  let block := obj [("type", .string "tool_result"),
    ("tool_use_id", .string (((message.get "tool_call_id").bind asStr).getD "")),
    ("content", content)]
  match message.get "cache_control" with
  | some cacheControl => block.set "cache_control" cacheControl
  | none => block

def spokenContent (message : Value) : Except String (List Value) :=
  match message.get "content" with
  | some (.string text) => .ok [.obj [("type", .string "text"), ("text", .string text)]]
  | some (.array blocks) => blocks.mapM (openaiContentToAnthropic decodeBase64)
  | _ => .ok []

def toolUse (serde : Serde) (call : Value) : Value :=
  let function := call.index "function"
  let input := ((function.index "arguments").asStr.bind fun raw =>
    (serde.fromSlice (utf8 raw)).toOption).getD (.obj [])
  .obj [("type", .string "tool_use"), ("id", call.index "id"),
    ("name", .string (anthropicToolName (((function.index "name").asStr).getD "tool"))),
    ("input", input)]

/-- Anthropic refuses an empty text. -/
def isSent (block : Value) : Bool :=
  blockType block != some "text" ||
    ((block.get "text").bind asStr).any fun text => !text.isEmpty

def Translation.push (serde : Serde) (translation : Translation) (message : Value) : Except String Translation :=
  let role := roleOf message
  if role = "system" ∨ role = "developer" then .ok (translation.pushSystem message)
  else if role = "tool" then
    (resultContent decodeBase64 message).map fun content =>
      { translation with out := pushResult translation.out (resultBlock message content) }
  else
    (spokenContent decodeBase64 message).map fun content =>
      let calls := (((message.get "tool_calls").bind asArray).getD []).map (toolUse serde)
      let content := (content ++ calls).filter isSent
      if content.isEmpty then translation
      else { translation with out := translation.out ++ [⟨role, content⟩] }

def openaiToAnthropic (serde : Serde) (messages : List Value) : Except String Translation :=
  messages.foldlM (Translation.push decodeBase64 serde) ⟨[], []⟩

end Blocks

open List

attribute [local simp] Value.obj Value.set

section Requests

def blocksOf (message : Value) : List Value :=
  match message.get "content" with
  | some (.array blocks) => blocks
  | _ => []

variable (block : Value)

def isToolUse : Bool := blockType block == some "tool_use"

def isToolResult : Bool := blockType block == some "tool_result"

def toolUseId : String := ((block.get "id").bind asStr).getD ""

def useIds (message : Value) : List String := ((blocksOf message).filter isToolUse).map toolUseId

/-- A request in which each call of a turn is answered at the start of the next one,
with text and images behind the results. -/
inductive Answered : List Value → Prop where
  | nil : Answered []
  | plain {message : Value} {rest : List Value}
      (role : roleOf message = "user" ∨ roleOf message = "assistant")
      (untooled : ∀ block ∈ blocksOf message, isToolUse block = false ∧ isToolResult block = false)
      (next : Answered rest) : Answered (message :: rest)
  | exchange {calling answering : Value} {results others rest : List Value}
      (assistant : roleOf calling = "assistant")
      (calls : ∃ block ∈ blocksOf calling, isToolUse block = true)
      (unanswering : ∀ block ∈ blocksOf calling, isToolResult block = false)
      (user : roleOf answering = "user") (blocks : blocksOf answering = results ++ others)
      (answers : ∀ block ∈ results, isToolResult block = true)
      (behind : ∀ block ∈ others, blockType block = some "text" ∨ blockType block = some "image")
      (matched : ∀ id, id ∈ useIds calling ↔ id ∈ results.map toolResultId)
      (next : Answered rest) : Answered (calling :: answering :: rest)

def isPicture : Bool :=
  blockType block == some "image" && isBase64 (block.index "source")

/-- A block that becomes text or an image of an OpenAI message. -/
def speaks : Bool :=
  (blockType block == some "text" && ((block.get "text").bind asStr).isSome) ||
    isPicture block

/-- A block that makes an assistant's turn one that thinks. -/
def thinks : Bool :=
  (blockType block == some "thinking" && (((block.get "thinking").bind asStr).isSome ||
    ((block.get "signature").bind asStr).isSome)) ||
    blockType block == some "redacted_thinking"

/-- Turns with tool results say nothing else. -/
def Quiet (messages : List Value) : Prop :=
  ∀ message ∈ messages, (∃ block ∈ blocksOf message, isToolResult block = true) →
    ∀ block ∈ blocksOf message, speaks block = false

end Requests

def callIds (message : Value) : List String :=
  (((message.get "tool_calls").bind asArray).getD []).map toolUseId

def toolCallId (message : Value) : String :=
  ((message.get "tool_call_id").bind asStr).getD ""

/-- Every tool message follows the message with its call, or another tool message
behind that one. The calls are those of the run that the message before is in. -/
def Attached : Option (List String) → List Value → Prop
  | _, [] => True
  | calls, message :: rest =>
    if roleOf message = "tool" then
      (∃ ids, calls = some ids ∧ toolCallId message ∈ ids) ∧ Attached calls rest
    else Attached (if roleOf message = "assistant" then some (callIds message) else none) rest

section Parts
variable (serde : Serde)

variable (parts : TurnParts) (block : Value)

theorem addBlock_toolResults : (addBlock serde parts block).toolResults =
      parts.toolResults ++ ([block].filter isToolResult).map toolResult := by
  unfold addBlock isToolResult
  split <;> simp_all
  split <;> rfl

theorem addBlock_toolCalls : (addBlock serde parts block).toolCalls =
      parts.toolCalls ++ ([block].filter isToolUse).map (toolCall serde) := by
  unfold addBlock isToolUse
  split <;> simp_all
  split <;> rfl

theorem addBlock_silent : ((addBlock serde parts block).textParts = [] ∧ (addBlock serde parts block).imageParts = []) ↔
      (parts.textParts = [] ∧ parts.imageParts = []) ∧ speaks block = false := by
  unfold addBlock speaks isPicture
  split <;> simp_all
  · tauto
  · split <;> simp_all

theorem silent_foldl (blocks : List Value) : ((blocks.foldl (addBlock serde) parts).textParts = [] ∧
        (blocks.foldl (addBlock serde) parts).imageParts = []) ↔
      (parts.textParts = [] ∧ parts.imageParts = []) ∧ ∀ block ∈ blocks, speaks block = false := by
  induction blocks generalizing parts with
  | nil => simp
  | cons block blocks ih => rw [foldl_cons, ih, addBlock_silent, forall_mem_cons, and_assoc]

variable (message : Value)

theorem turnParts_cases : turnParts serde message = (blocksOf message).foldl (addBlock serde) .empty ∨
      blocksOf message = [] ∧ ∃ text, turnParts serde message = ⟨[text], [], [], [], [], none, false⟩ := by
  unfold turnParts blocksOf
  cases message.get "content" with
  | none => exact .inl rfl
  | some content =>
    cases content with
    | string text => exact .inr ⟨rfl, text, rfl⟩
    | array blocks => exact .inl rfl
    | _ => exact .inl rfl

theorem turnParts_collects {field : TurnParts → List Value} {wanted : Value → Bool} {shape : Value → Value}
    (adds : ∀ parts block, field (addBlock serde parts block) = field parts ++ ([block].filter wanted).map shape)
    (none : ∀ texts, field ⟨texts, [], [], [], [], .none, false⟩ = []) (message : Value) :
    field (turnParts serde message) = ((blocksOf message).filter wanted).map shape := by
  have collected : ∀ parts (blocks : List Value), field (blocks.foldl (addBlock serde) parts) =
      field parts ++ (blocks.filter wanted).map shape := by
    intro parts blocks
    induction blocks generalizing parts with
    | nil => simp
    | cons block blocks ih =>
      rw [foldl_cons, ih, adds, List.append_assoc, ← map_append, ← filter_append, singleton_append]
  obtain blocks | ⟨empty, text, spoken⟩ := turnParts_cases serde message
  · rw [blocks, collected, TurnParts.empty, none, nil_append]
  · rw [empty, spoken, none]
    rfl

theorem turnParts_toolResults :
    (turnParts serde message).toolResults = ((blocksOf message).filter isToolResult).map toolResult :=
  turnParts_collects serde (addBlock_toolResults serde) (fun _ => rfl) message

theorem turnParts_toolCalls : (turnParts serde message).toolCalls =
      ((blocksOf message).filter isToolUse).map (toolCall serde) :=
  turnParts_collects serde (addBlock_toolCalls serde) (fun _ => rfl) message

theorem turnParts_silent {message : Value} (given : blocksOf message ≠ []) :
    ((turnParts serde message).textParts = [] ∧ (turnParts serde message).imageParts = []) ↔
      ∀ block ∈ blocksOf message, speaks block = false := by
  obtain blocks | ⟨none, -⟩ := turnParts_cases serde message
  · rw [blocks]
    exact (silent_foldl serde .empty _).trans (and_iff_right ⟨rfl, rfl⟩)
  · exact absurd none given

theorem addBlock_imageParts : (addBlock serde parts block).imageParts =
      parts.imageParts ++ ([block].filter isPicture).map fun block => imageUrl (block.index "source") := by
  unfold addBlock isPicture
  split
  case h_2 type =>
    rw [filter_singleton, type]
    cases isBase64 (block.index "source") <;> simp
  all_goals simp_all

theorem turnParts_imageParts : (turnParts serde message).imageParts =
      ((blocksOf message).filter isPicture).map fun block => imageUrl (block.index "source") :=
  turnParts_collects serde (addBlock_imageParts serde) (fun _ => rfl) message

/-- What makes the message of an assistant's turn carry reasoning. -/
def TurnParts.Thoughtful : Prop :=
  parts.thinkingParts.isEmpty = false ∨ parts.signature.isSome = true ∨ parts.redacted = true

theorem addBlock_thoughtful : (addBlock serde parts block).Thoughtful ↔ parts.Thoughtful ∨ thinks block = true := by
  unfold addBlock thinks TurnParts.Thoughtful
  split
  case h_3 type =>
    rw [type]
    cases (block.get "thinking").bind asStr <;>
      cases (block.get "signature").bind asStr <;> simp
  all_goals simp_all
  split <;> rfl

theorem thoughtful_foldl (blocks : List Value) : (blocks.foldl (addBlock serde) parts).Thoughtful ↔
      parts.Thoughtful ∨ ∃ block ∈ blocks, thinks block = true := by
  induction blocks generalizing parts with
  | nil => simp
  | cons block blocks ih =>
    rw [foldl_cons, ih, addBlock_thoughtful, or_assoc]
    simp only [mem_cons, exists_eq_or_imp]

theorem turnParts_thoughtful :
    (turnParts serde message).Thoughtful ↔ ∃ block ∈ blocksOf message, thinks block = true := by
  obtain blocks | ⟨none, text, spoken⟩ := turnParts_cases serde message
  · rw [blocks, thoughtful_foldl]
    simp [TurnParts.Thoughtful, TurnParts.empty]
  · rw [none, spoken]
    simp [TurnParts.Thoughtful]

end Parts

@[simp] theorem roleOf_toolResult (block : Value) : roleOf (toolResult block) = "tool" := by
  unfold roleOf toolResult
  cases block.get "cache_control" <;> cases (block.get "is_error").bind asBool <;>
    simp

@[simp] theorem toolCallId_toolResult (block : Value) : toolCallId (toolResult block) = toolResultId block := by
  unfold toolCallId toolResult
  cases block.get "cache_control" <;> cases (block.get "is_error").bind asBool <;>
    simp

theorem content_toolResult (block : Value) :
    (toolResult block).get "content" = some (toolResultOutput (toolResultContent block)) := by
  unfold toolResult
  cases block.get "cache_control" <;> cases (block.get "is_error").bind asBool <;>
    simp

@[simp] theorem roleOf_assistantMessage (parts : TurnParts) : roleOf (assistantMessage parts) = "assistant" := by
  unfold roleOf assistantMessage
  cases parts.toolCalls.isEmpty <;> cases parts.thinkingParts.isEmpty <;>
    cases parts.signature <;> cases parts.redacted <;> simp

theorem content_assistantMessage (parts : TurnParts) :
    (assistantMessage parts).get "content" = some (.string (String.join parts.textParts)) := by
  unfold assistantMessage
  cases parts.toolCalls.isEmpty <;> cases parts.thinkingParts.isEmpty <;>
    cases parts.signature <;> cases parts.redacted <;> simp

theorem calls_assistantMessage (parts : TurnParts) :
    (((assistantMessage parts).get "tool_calls").bind asArray).getD [] = parts.toolCalls := by
  unfold assistantMessage
  cases calls : parts.toolCalls.isEmpty <;> cases parts.thinkingParts.isEmpty <;>
    cases parts.signature <;> cases parts.redacted <;>
    simp_all [asArray]

@[simp] theorem roleOf_plainMessage (role : String) (parts : TurnParts) : roleOf (plainMessage role parts) = role := by
  simp [roleOf, plainMessage]

theorem toolUseId_toolCall (serde : Serde) (block : Value) : toolUseId (toolCall serde block) = toolUseId block := by
  simp [toolUseId, toolCall]

section ToOpenai
variable (serde : Serde)

theorem attached_results (ids : List String) (results rest : List Value) :
    Attached (some ids) (results.map toolResult ++ rest) ↔
      (∀ block ∈ results, toolResultId block ∈ ids) ∧ Attached (some ids) rest := by
  induction results with
  | nil => simp
  | cons block results ih =>
    rw [map_cons, cons_append, Attached, if_pos (roleOf_toolResult block), ih,
      toolCallId_toolResult, forall_mem_cons, and_assoc]
    refine and_congr_left fun _ => ⟨?_, fun issued => ⟨ids, rfl, issued⟩⟩
    rintro ⟨_, ⟨⟩, issued⟩
    exact issued

variable {message : Value}

theorem attached_cons (other : roleOf message ≠ "tool") (calls : Option (List String)) (rest : List Value) :
    Attached calls (message :: rest) ↔
      Attached (if roleOf message = "assistant" then some (callIds message) else none) rest := by
  rw [Attached, if_neg other]

theorem roleOf_spokenMessage {role : String} {parts : TurnParts}
    (spoken : spokenMessage role parts = some message) : roleOf message = "assistant" ∨ roleOf message = role := by
  unfold spokenMessage at spoken
  split at spoken
  · cases spoken
    exact .inl (roleOf_assistantMessage parts)
  · split at spoken
    · cases spoken
      exact .inl (by simp [roleOf, callingMessage])
    · split at spoken
      · cases spoken
        exact .inr (roleOf_plainMessage role parts)
      · cases spoken

/-- A turn without tools is at most one message. -/
theorem turnMessages_plain
    (untooled : ∀ block ∈ blocksOf message, isToolUse block = false ∧ isToolResult block = false) :
    turnMessages serde message = (spokenMessage (roleOf message) (turnParts serde message)).toList := by
  have none : (blocksOf message).filter isToolResult = [] :=
    filter_eq_nil_iff.2 fun block member => by simp [(untooled block member).2]
  rw [turnMessages, turnParts_toolResults, none, map_nil, append_nil]

theorem turnMessages_calling (assistant : roleOf message = "assistant")
    (calls : ∃ block ∈ blocksOf message, isToolUse block = true)
    (unanswering : ∀ block ∈ blocksOf message, isToolResult block = false) :
    turnMessages serde message = [assistantMessage (turnParts serde message)] := by
  have none : (blocksOf message).filter isToolResult = [] :=
    filter_eq_nil_iff.2 fun block member => by simp [unanswering block member]
  have calling : (turnParts serde message).toolCalls.isEmpty = false := by
    obtain ⟨block, member, uses⟩ := calls
    rw [turnParts_toolCalls, isEmpty_map, isEmpty_eq_false_iff_exists_mem]
    exact ⟨block, mem_filter.2 ⟨member, uses⟩⟩
  rw [turnMessages, turnParts_toolResults, none, spokenMessage, if_pos ⟨assistant, .inl calling⟩]
  rfl

theorem callIds_assistantMessage (message : Value) :
    callIds (assistantMessage (turnParts serde message)) = useIds message := by
  rw [callIds, calls_assistantMessage, turnParts_toolCalls, List.map_map]
  exact map_congr_left fun block _ => toolUseId_toolCall serde block

theorem exists_result {calling : Value} {results : List Value}
    (uses : ∃ block ∈ blocksOf calling, isToolUse block = true)
    (matched : ∀ id, id ∈ useIds calling ↔ id ∈ results.map toolResultId) : ∃ block, block ∈ results := by
  obtain ⟨block, member, use⟩ := uses
  have issued : toolUseId block ∈ useIds calling := mem_map_of_mem (mem_filter.2 ⟨member, use⟩)
  obtain ⟨result, found, -⟩ := mem_map.1 ((matched _).1 issued)
  exact ⟨result, found⟩

section
variable {results others : List Value} (blocks : blocksOf message = results ++ others)
    (answers : ∀ block ∈ results, isToolResult block = true)
    (behind : ∀ block ∈ others, blockType block = some "text" ∨ blockType block = some "image")
include blocks answers behind

theorem filter_isToolResult : (blocksOf message).filter isToolResult = results := by
  rw [blocks, filter_append, filter_eq_self.2 answers, filter_eq_nil_iff.2 fun block member => ?_, append_nil]
  obtain type | type := behind block member <;> simp [isToolResult, type]

/-- What a turn with tool results says comes before them. -/
theorem turnMessages_answering (user : roleOf message = "user") : turnMessages serde message =
      (if (turnParts serde message).textParts = [] ∧ (turnParts serde message).imageParts = [] then []
        else [plainMessage "user" (turnParts serde message)]) ++ results.map toolResult := by
  have uses : (blocksOf message).filter isToolUse = [] := by
    refine filter_eq_nil_iff.2 fun block member => ?_
    rw [blocks, mem_append] at member
    obtain member | member := member
    · simp_all [isToolUse, isToolResult]
    · obtain type | type := behind block member <;> simp [isToolUse, type]
  rw [turnMessages, turnParts_toolResults,
    filter_isToolResult blocks answers behind, user, spokenMessage, if_neg (by simp),
    turnParts_toolCalls, uses]
  by_cases silent : (turnParts serde message).textParts = [] ∧
      (turnParts serde message).imageParts = []
  · simp [silent]
  · rw [if_neg silent, if_neg (by simp), if_pos]
    · rfl
    · simpa [← not_and_or] using silent

end

theorem quiet_cons (message : Value) (rest : List Value) :
    Quiet (message :: rest) ↔ ((∃ block ∈ blocksOf message, isToolResult block = true) →
      ∀ block ∈ blocksOf message, speaks block = false) ∧ Quiet rest :=
  forall_mem_cons

theorem attached_flatMap_iff {messages : List Value} (answered : Answered messages)
    (calls : Option (List String)) : Attached calls (messages.flatMap (turnMessages serde)) ↔ Quiet messages := by
  induction answered generalizing calls with
  | nil => exact iff_of_true trivial nofun
  | @plain message rest role untooled next ih =>
    have unanswering : ¬ ∃ block ∈ blocksOf message, isToolResult block = true := by
      rintro ⟨block, member, answers⟩
      simp [(untooled block member).2] at answers
    rw [quiet_cons, and_iff_right fun found => absurd found unanswering, flatMap_cons, turnMessages_plain serde untooled]
    cases spoken : spokenMessage (roleOf message) (turnParts serde message) with
    | none => exact ih calls
    | some sent =>
      have other : roleOf sent ≠ "tool" := by
        obtain same | same := roleOf_spokenMessage spoken
        · simp [same]
        · obtain given | given := role <;> simp [same, given]
      exact (attached_cons other calls _).trans (ih _)
  | @exchange calling answering results others rest assistant uses unanswering user blocks answers
      behind matched next ih =>
      have uncalled : ¬ ∃ block ∈ blocksOf calling, isToolResult block = true := by
        rintro ⟨block, member, answers⟩
        simp [unanswering block member] at answers
      obtain ⟨result, found⟩ := exists_result uses matched
      have member : result ∈ blocksOf answering := blocks ▸ mem_append_left others found
      rw [quiet_cons, and_iff_right fun found => absurd found uncalled, quiet_cons,
        ← turnParts_silent serde (ne_nil_of_mem member), flatMap_cons, flatMap_cons,
        turnMessages_calling serde assistant uses unanswering,
        turnMessages_answering serde blocks answers behind user, singleton_append,
        attached_cons (by simp), roleOf_assistantMessage, if_pos rfl, callIds_assistantMessage]
      by_cases silent : (turnParts serde answering).textParts = [] ∧
          (turnParts serde answering).imageParts = []
      · rw [if_pos silent, nil_append, attached_results, ih,
          and_iff_right fun block member => (matched _).2 (mem_map_of_mem member),
          and_iff_right fun _ => silent]
      · -- the first result comes behind a message of the user
        rw [if_neg silent, List.append_assoc, singleton_append, attached_cons (by simp), if_neg (by simp)]
        refine iff_of_false ?_ fun quiet => silent (quiet.1 ⟨result, member, answers result found⟩)
        obtain _ | ⟨first, results⟩ := results
        · simp at found
        · rw [map_cons, cons_append, Attached, if_pos (roleOf_toolResult first)]
          rintro ⟨⟨ids, none, -⟩, -⟩
          cases none

end ToOpenai
end Mahoquot.Compat
