import CodexServer.Translate
import CodexServer.JsonValue

/-!
# Chat events as bytes

The bus publishes each event of a turn as a JSON object: a discriminator and the fields of the
event. A subscriber finds the class by the discriminator and validates the rest. The translator is
here with the arguments of a tool call as it gets them, and JSON is what `orjson` makes of it.
-/

namespace CodexServer.EventCodec

abbrev Fields := List (String × Json)

/-- `ChatEvent` -/
inductive TypedEvent
  | token (delta : String)
  | toolCall (name : String) (args : Fields)
  | toolResult (name text : String) (attachments : List Attachment) (error : Option ToolError)
  | done (finalText : String)
  | error (code : String) (detail : Option String)

/-- `type_tag` -/
def TypedEvent.typeTag : TypedEvent → String
  | token .. => "token"
  | toolCall .. => "tool_call"
  | toolResult .. => "tool_result"
  | done .. => "done"
  | error .. => "error"

/-! ### Encoding -/

def kindValue : AttachmentKind → String
  | .image => "image"
  | .audio => "audio"
  | .file => "file"

/-- A string or `None`. -/
def dumpOptional (value : Option String) : Json := value.elim .null .string

def dumpAttachment (attachment : Attachment) : Json :=
  .object [("kind", .string (kindValue attachment.kind)), ("source", .string attachment.source),
    ("caption", .string attachment.caption)]

def dumpError (error : ToolError) : Json :=
  .object [("message", .string error.message), ("code", dumpOptional error.code)]

/-- `model_dump(mode="json")` -/
def modelDump : TypedEvent → Fields
  | .token delta => [("delta", .string delta)]
  | .toolCall name args => [("name", .string name), ("args", .object args)]
  | .toolResult name text attachments error =>
      [("name", .string name), ("text", .string text),
        ("attachments", .array (attachments.map dumpAttachment)),
        ("error", error.elim .null dumpError)]
  | .done finalText => [("final_text", .string finalText)]
  | .error code detail => [("code", .string code), ("detail", dumpOptional detail)]

/-- `event_to_frame`; no model has a field `type`. -/
def eventToFrame (event : TypedEvent) : Fields :=
  ("type", .string event.typeTag) :: modelDump event

/-! ### Validation -/

/-- `extra="forbid"` -/
def onlyFields (names : List String) (payload : Fields) : Bool :=
  payload.all fun field => names.contains field.1

/-- A `str` that has to be there. -/
def required (name : String) (payload : Fields) : Option String :=
  (payload.lookup name).bind Json.string?

/-- A `str` with a default. -/
def defaulted (name default : String) (payload : Fields) : Option String :=
  ((payload.lookup name).getD (.string default)).string?

/-- `str | None`, which is `None` by default. -/
def optional (name : String) (payload : Fields) : Option (Option String) :=
  match payload.lookup name with
  | none | some .null => some none
  | some (.string value) => some (some value)
  | some _ => none

def kindOf (value : String) : Option AttachmentKind :=
  [AttachmentKind.image, .audio, .file].find? fun kind => kindValue kind = value

def validateAttachment (value : Json) : Option Attachment := do
  let payload ← value.object?
  if onlyFields ["kind", "source", "caption"] payload then
    let kind ← (required "kind" payload).bind kindOf
    let source ← required "source" payload
    let caption ← defaulted "caption" "" payload
    some ⟨kind, source, caption⟩
  else none

def validateAttachments : Option Json → Option (List Attachment)
  | none => some []
  | some (.array items) => items.mapM validateAttachment
  | some _ => none

def validateToken (payload : Fields) : Option TypedEvent :=
  if onlyFields ["delta"] payload then (required "delta" payload).map .token else none

def validateToolCall (payload : Fields) : Option TypedEvent :=
  if onlyFields ["name", "args"] payload then do
    let name ← required "name" payload
    let args ← (payload.lookup "args").bind Json.object?
    some (.toolCall name args)
  else none

def validateToolResult (payload : Fields) : Option TypedEvent :=
  if onlyFields ["name", "text", "attachments", "error"] payload then do
    let name ← required "name" payload
    let text ← defaulted "text" "" payload
    let attachments ← validateAttachments (payload.lookup "attachments")
    let error ← (coerceError (payload.lookup "error")).toOption
    some (.toolResult name text attachments error)
  else none

def validateDone (payload : Fields) : Option TypedEvent :=
  if onlyFields ["final_text"] payload then (required "final_text" payload).map .done else none

def validateError (payload : Fields) : Option TypedEvent :=
  if onlyFields ["code", "detail"] payload then do
    let code ← required "code" payload
    let detail ← optional "detail" payload
    some (.error code detail)
  else none

/-- `_TAG_TO_CLS`, each class with its `model_validate`. -/
def tagToClass : List (String × (Fields → Option TypedEvent)) :=
  [("token", validateToken), ("tool_call", validateToolCall), ("tool_result", validateToolResult),
    ("done", validateDone), ("error", validateError)]

/-- What decoding raises. -/
inductive DecodeError
  | jsonDecodeError
  | keyError (key : Json)
  | typeError
  | validationError

/-- `frame_to_event` -/
def frameToEvent (frame : Fields) : Except DecodeError TypedEvent :=
  match frame.lookup "type" with
  | none => .error (.keyError (.string "type"))
  | some (.array _) | some (.object _) => .error .typeError
  | some (.string tag) =>
      match tagToClass.lookup tag with
      | none => .error (.keyError (.string tag))
      | some modelValidate =>
          let payload := frame.filter fun field => field.1 ≠ "type"
          (modelValidate payload).elim (.error .validationError) .ok
  | some tag => .error (.keyError tag)

/-! ### Bytes -/

/-- `orjson.dumps` and `orjson.loads`, `none` where they raise. -/
structure Orjson (Bytes : Type) where
  dumps : Json → Option Bytes
  loads : Bytes → Option Json

/-- JSON is implemented: what is read is a value of Python, and each of these is read as it was
written. -/
structure Orjson.ImplementsJson {Bytes : Type} (orjson : Orjson Bytes) (isNumber : ℚ → Prop) :
    Prop where
  loads_wellformed : ∀ raw value, orjson.loads raw = some value → value.Wellformed isNumber
  loads_dumps : ∀ value : Json, value.Wellformed isNumber →
    ∃ raw, orjson.dumps value = some raw ∧ orjson.loads raw = some value

section

variable {Bytes : Type} (orjson : Orjson Bytes)

/-- `event_to_bytes` -/
def eventToBytes (event : TypedEvent) : Option Bytes := orjson.dumps (.object (eventToFrame event))

/-- `bytes_to_event` -/
def bytesToEvent (raw : Bytes) : Except DecodeError TypedEvent :=
  match orjson.loads raw with
  | none => .error .jsonDecodeError
  | some (.object frame) => frameToEvent frame
  | some _ => .error .typeError

end

/-! ### The translator with the arguments of tool calls -/

section

variable (python : Python)

/-- The event with the text of its arguments only. -/
def TypedEvent.toCodex : TypedEvent → CodexEvent
  | token delta => .token delta
  | toolCall name args => .toolCall ⟨name, python.dumps (.object args)⟩
  | toolResult name text attachments failed => .toolResult name text attachments failed
  | done finalText => .done finalText
  | error code detail => .error code detail

/-- An event that is no tool call. -/
def TypedEvent.ofCodex : CodexEvent → Option TypedEvent
  | .token delta => some (.token delta)
  | .toolCall _ => none
  | .toolResult name text attachments failed => some (.toolResult name text attachments failed)
  | .done finalText => some (.done finalText)
  | .error code detail => some (.error code detail)

/-- A field that has to be a `dict`. -/
def asDict : Json → Except PyError Fields
  | .object fields => .ok fields
  | _ => .error .validationError

/-- `to_started` -/
def toStarted (spec : BuiltinSpec) (item : Json) : Except PyError TypedEvent := do
  let name ← spec.label item
  let args ← spec.args item
  let name ← name.asString
  pure (.toolCall name (← asDict args))

/-- `_generic_tool_call` -/
def genericToolCall (item : Json) : Except PyError (Option TypedEvent) := do
  match ← item.getOrNull "toolName" with
  | .null => pure none
  | toolName =>
      let name ← toolName.asString
      let args ← asDict ((← item.get "arguments").getD (.object []))
      pure (some (.toolCall name args))

/-- `_on_item_started` -/
def onItemStarted (item : Json) : Except PyError (Option TypedEvent) := do
  match ← item.index "type" with
  | .array _ | .object _ => throw .typeError
  | .string itemType =>
      if itemType = CodexItem.agentMessage ∨ itemType ∈ hiddenItems then pure none
      else
        match (builtins python).lookup itemType with
        | some spec => return some (← toStarted spec item)
        | none => genericToolCall item
  | _ => genericToolCall item

/-- `translate_notification` -/
def translateEvent (note : Notification) (accumulated : String) :
    Except PyError (Option TypedEvent) := do
  if note.method = CodexNotif.itemStarted then
    onItemStarted python (← (Json.object note.params).index "item")
  else return (← translateNotification python note accumulated).bind TypedEvent.ofCodex

end
end CodexServer.EventCodec
