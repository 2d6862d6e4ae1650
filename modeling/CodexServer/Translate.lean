import CodexServer.ChatEvent
import CodexServer.Notification

/-!
# Notifications to chat events

`translate_notification` makes an event of a notification, or nothing. It knows the text the turn
has streamed so far and no other state. A notification of another shape than expected is an
exception.
-/

namespace CodexServer

namespace CodexItem

def agentMessage : String := "agentMessage"

def commandExecution : String := "commandExecution"

def fileChange : String := "fileChange"

def mcpToolCall : String := "mcpToolCall"

def dynamicToolCall : String := "dynamicToolCall"

def webSearch : String := "webSearch"

def imageView : String := "imageView"

def imageGeneration : String := "imageGeneration"

end CodexItem

/-- `_HIDDEN_ITEMS` -/
def hiddenItems : List String :=
  ["userMessage", "hookPrompt", "plan", "reasoning", "collabAgentToolCall", "enteredReviewMode",
    "exitedReviewMode", "contextCompaction"]

/-- What the translator uses of Python and its libraries. -/
structure Python where
  /-- `str(value)` -/
  str : Json → String
  /-- The JSON text of a value. -/
  dumps : Json → String
  /-- `orjson.loads`, `none` when it raises. -/
  loads : String → Option Json
  /-- `mimetypes.guess_type(path)` is an image type. -/
  isImage : String → Bool

section

variable (python : Python)

/-! ### Tools -/

def commandArgs (item : Json) : Except PyError Json := do
  match ← item.index "command" with
  | .array parts => pure (.object [("command", .string (" ".intercalate (parts.map python.str)))])
  | command => pure (.object [("command", command)])

def imageAttachment (source caption : String) : List Attachment := [⟨.image, source, caption⟩]

/-- `_attachment_from_dict` -/
def attachmentFromDict (fields : List (String × Json)) : Option Attachment :=
  match (fields.lookup "path").bind Json.string? with
  | none => none
  | some path =>
      if path = "" ∨ !python.isImage path then none
      else some ⟨.image, path, ((fields.lookup "caption").bind Json.string?).getD ""⟩

/-- The attachment of one block of `content`, when it has one. -/
def blockAttachment (block : Json) : Option Attachment := do
  let fields ← block.object?
  if (fields.lookup "type").bind Json.string? ≠ some "text" then none
  else do
    let text ← ((fields.lookup "text").filter Json.truthy).getD (.string "") |>.string?
    let data ← (python.loads text).bind Json.object?
    attachmentFromDict python data

/-- The values that `for item in value` goes through. -/
def iterate : Json → Except PyError (List Json)
  | .array items => .ok items
  | .object fields => .ok (fields.map fun field => .string field.1)
  | .string text => .ok (text.toList.map fun char => .string char.toString)
  | _ => .error .typeError

/-- `_mcp_attachments` -/
def mcpAttachments (item : Json) : Except PyError (List Attachment) := do
  match (← item.get "result").bind Json.object? with
  | none => pure []
  | some result =>
      let structured := ((result.lookup "structuredContent").bind Json.object?).bind
        (attachmentFromDict python)
      match structured with
      | some attachment => pure [attachment]
      | none =>
          let blocks ← iterate (((result.lookup "content").filter Json.truthy).getD (.array []))
          pure (blocks.findSome? (blockAttachment python)).toList

/-- `item.get(key) or default`, which has to be a string. -/
def getString (key default : String) (item : Json) : Except PyError String := do
  (((← item.get key).filter Json.truthy).getD (.string default)).asString

/-- `item.get(key, default)`, which has to be a string. -/
def getStringOr (key default : String) (item : Json) : Except PyError String := do
  ((← item.get key).getD (.string default)).asString

/-- `_mcp_label` -/
def mcpLabel (item : Json) : Except PyError Json := do
  match ((← item.get "tool").filter Json.truthy).getD (.string "mcp") with
  | .array _ | .object _ => throw .typeError
  | tool => pure tool

/-- `_BuiltinSpec` -/
structure BuiltinSpec where
  label : Json → Except PyError Json
  args : Json → Except PyError Json
  text : Json → Except PyError String := fun _ => .ok ""
  attachments : Json → Except PyError (List Attachment) := fun _ => .ok []

/-- `_BUILTINS` -/
def builtins : List (String × BuiltinSpec) :=
  [(CodexItem.commandExecution,
      { label := fun _ => .ok (.string "shell"), args := commandArgs python
        text := getString "aggregatedOutput" "" }),
    (CodexItem.fileChange,
      { label := fun _ => .ok (.string "file_change")
        args := fun item => return .object [("changes", ← item.index "changes")] }),
    (CodexItem.webSearch,
      { label := fun _ => .ok (.string "web_search")
        args := fun item => return .object [("query", ← item.index "query")] }),
    (CodexItem.mcpToolCall,
      { label := mcpLabel
        args := fun item => do
          let server ← item.index "server"
          let tool ← item.index "tool"
          pure (.object [("server", server), ("tool", tool)])
        attachments := mcpAttachments python }),
    (CodexItem.imageGeneration,
      { label := fun _ => .ok (.string "image_generation")
        args := fun item =>
          return .object [("prompt", (← item.get "revisedPrompt").getD (.string ""))]
        text := getStringOr "revisedPrompt" ""
        attachments := fun item => do
          match (← item.get "savedPath").filter Json.truthy with
          | none => pure []
          | some path => pure (imageAttachment (← path.asString) "") }),
    (CodexItem.imageView,
      { label := fun _ => .ok (.string "image_view")
        args := fun item => return .object [("path", ← item.index "path")]
        attachments := fun item => return imageAttachment (← (← item.index "path").asString) "" })]

/-- `ToolResultEvent._coerce_error`, and what the model accepts after it. -/
def coerceError : Option Json → Except PyError (Option ToolError)
  | none | some .null => .ok none
  | some (.string message) => .ok (if message = "" then none else some ⟨message, none⟩)
  | some (.object fields) =>
      match fields.lookup "message", fields.lookup "code" with
      | some (.string message), none | some (.string message), some .null => .ok (some ⟨message, none⟩)
      | some (.string message), some (.string code) => .ok (some ⟨message, some code⟩)
      | _, _ => .error .validationError
  | some _ => .error .validationError

def BuiltinSpec.toStarted (spec : BuiltinSpec) (item : Json) : Except PyError CodexEvent := do
  let name ← spec.label item
  let args ← spec.args item
  pure (.toolCall ⟨← name.asString, python.dumps args⟩)

def BuiltinSpec.toCompleted (spec : BuiltinSpec) (item : Json) : Except PyError CodexEvent := do
  let name ← spec.label item
  let text ← spec.text item
  let attachments ← spec.attachments item
  let error ← coerceError (← item.get "error")
  pure (.toolResult (← name.asString) text attachments error)

/-- One entry of `contentItems`: a text, an attachment, or neither. -/
def contentItem (tool content : Json) : Except PyError (Option (Json ⊕ Attachment)) := do
  match ← content.index "type" with
  | .string "inputText" => pure (some (.inl (← content.index "text")))
  | .string "inputImage" =>
      let source ← (← content.index "imageUrl").asString
      pure (some (.inr ⟨.image, source, ← tool.asString⟩))
  | _ => pure none

/-- `p for p in parts if p.strip()` -/
def visibleParts : List Json → Except PyError (List String)
  | [] => .ok []
  | .string text :: rest => do
      let visible ← visibleParts rest
      pure (if text.toList.all isPythonSpace then visible else text :: visible)
  | _ :: _ => .error .attributeError

/-- `_dynamic_tool_call_to_event` -/
def dynamicToolCallToEvent (item : Json) : Except PyError CodexEvent := do
  let tool ← item.index "tool"
  let entries ← iterate (← item.index "contentItems")
  let contents := (← entries.mapM (contentItem tool)).reduceOption
  let parts ← visibleParts (contents.filterMap Sum.getLeft?)
  let error ← coerceError (← item.get "error")
  pure (.toolResult (← tool.asString) ("\n\n".intercalate parts)
    (contents.filterMap Sum.getRight?) error)

/-- `_generic_tool_call` -/
def genericToolCall (item : Json) : Except PyError (Option CodexEvent) := do
  match ← item.getOrNull "toolName" with
  | .null => pure none
  | toolName =>
      let name ← toolName.asString
      match (← item.get "arguments").getD (.object []) with
      | .object fields => pure (some (.toolCall ⟨name, python.dumps (.object fields)⟩))
      | _ => throw .validationError

/-- `_generic_tool_result` -/
def genericToolResult (item : Json) : Except PyError (Option CodexEvent) := do
  match ← item.getOrNull "toolName" with
  | .null => pure none
  | toolName =>
      let name ← toolName.asString
      let text ← getStringOr "output" "" item
      let error ← coerceError (← item.get "error")
      pure (some (.toolResult name text [] error))

/-! ### Text -/

/-- `_agent_message_to_token`: what the completed message adds to the streamed text. -/
def agentMessageToToken (text accumulated : String) : Option CodexEvent :=
  if text = "" ∨ text.toList.isSuffixOf accumulated.toList then none
  else if accumulated.toList.isPrefixOf text.toList then
    some (.token (String.ofList (text.toList.drop accumulated.toList.length)))
  else none

/-! ### The translator -/

/-- `_on_item_started` -/
def onItemStarted (item : Json) : Except PyError (Option CodexEvent) := do
  match ← item.index "type" with
  | .array _ | .object _ => throw .typeError
  | .string itemType =>
      if itemType = CodexItem.agentMessage ∨ itemType ∈ hiddenItems then pure none
      else
        match (builtins python).lookup itemType with
        | some spec => return some (← spec.toStarted python item)
        | none => genericToolCall python item
  | _ => genericToolCall python item

/-- `_on_item_completed` -/
def onItemCompleted (item : Json) (accumulated : String) : Except PyError (Option CodexEvent) := do
  match ← item.index "type" with
  | .array _ | .object _ => throw .typeError
  | .string itemType =>
      if itemType = CodexItem.agentMessage then
        return agentMessageToToken (← (← item.index "text").asString) accumulated
      else if itemType ∈ hiddenItems then pure none
      else if itemType = CodexItem.dynamicToolCall then return some (← dynamicToolCallToEvent item)
      else
        match (builtins python).lookup itemType with
        | some spec => return some (← spec.toCompleted item)
        | none => genericToolResult item
  | _ => genericToolResult item

/-- `turn/completed`: an error, a failure, or the end of the turn. -/
def onTurnCompleted (params : List (String × Json)) (accumulated : String) :
    Except PyError CodexEvent := do
  let turn := (params.lookup "turn").getD (.object [])
  match (← turn.get "error").filter Json.truthy with
  | some error =>
      match ← error.getOrNull "message" with
      | .null => pure (.error CodexErrorCode.codexError none)
      | message => pure (.error CodexErrorCode.codexError (some (← message.asString)))
  | none =>
      if (← turn.get "status").bind Json.string? = some "failed" then
        pure (.error CodexErrorCode.codexError (some "Codex turn failed"))
      else
        match params.lookup "finalText" with
        | none => pure (.done accumulated)
        | some finalText => pure (.done (← finalText.asString))

/-- `translate_notification` -/
def translateNotification (note : Notification) (accumulated : String) :
    Except PyError (Option CodexEvent) := do
  let params := Json.object note.params
  if note.method = CodexNotif.turnStarted then pure none
  else if note.method = CodexNotif.agentMsgDelta then
    match ← params.index "delta" with
    | delta => if delta.truthy then return some (.token (← delta.asString)) else pure none
  else if note.method = CodexNotif.itemStarted then onItemStarted python (← params.index "item")
  else if note.method = CodexNotif.itemCompleted then
    onItemCompleted python (← params.index "item") accumulated
  else if note.method = CodexNotif.turnCompleted then
    return some (← onTurnCompleted note.params accumulated)
  else pure none

end
end CodexServer
