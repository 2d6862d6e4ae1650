import Mathlib.Data.List.Infix

/-!
# Chat events

Codex reports a turn as events of its own; the web client is sent protobuf frames. This file has
both, the translation between them with the redaction of leaked links, and the collector that folds
the Codex events of one turn into the text, calls and attachments of the assistant message.
-/

namespace CodexServer

namespace CodexErrorCode

def turnTimeout : String := "turn_timeout"

def turnBusy : String := "turn_busy"

def staleActiveTurn : String := "stale_active_turn"

def codexError : String := "codex_error"

def streamDropped : String := "stream_dropped"

end CodexErrorCode

inductive AttachmentKind
  | image
  | audio
  | file
deriving DecidableEq

structure Attachment where
  kind : AttachmentKind
  source : String
  caption : String
deriving DecidableEq

structure ToolError where
  message : String
  code : Option String
deriving DecidableEq

/-- The arguments of a tool call are JSON; nothing here looks into them. -/
structure ToolCallRecord where
  name : String
  args : String
deriving DecidableEq

/-- Events of the Codex stream. -/
inductive CodexEvent
  | token (delta : String)
  | toolCall (record : ToolCallRecord)
  | toolResult (name text : String) (attachments : List Attachment) (error : Option ToolError)
  | done (finalText : String)
  | error (code : String) (detail : Option String)
deriving DecidableEq

/-- An assistant row of `messages`, the snapshot a done frame carries. -/
structure AssistantMessage where
  id : Nat
  chatId : Nat
  text : String
  isPartial : Bool
  calls : List ToolCallRecord
  uploads : List Attachment
  clientId : Option String
deriving DecidableEq

/-- The `kind` of a frame. -/
inductive ChatEventKind
  | turnStarted (turnId : Nat)
  | token (delta : String)
  | toolCall (record : ToolCallRecord)
  | toolResult (name text : String) (attachments : List Attachment) (error : Option ToolError)
  | done (chatId : Nat) (finalText : String) (message : Option AssistantMessage)
      (steeredFallback : Bool)
  | error (code : String) (detail : Option String)
deriving DecidableEq

structure ChatEvent where
  kind : ChatEventKind
  eventId : String := ""
deriving DecidableEq

namespace ChatEvent

def isDone (event : ChatEvent) : Bool :=
  match event.kind with
  | .done .. => true
  | _ => false

def isError (event : ChatEvent) : Bool :=
  match event.kind with
  | .error .. => true
  | _ => false

/-- `WhichOneof("kind") in ("done", "error")`. -/
def isTerminal (event : ChatEvent) : Bool := event.isDone || event.isError

end ChatEvent

def errorEvent (code : String) (detail : Option String) : ChatEvent := ⟨.error code detail, ""⟩

/-! ### Frames from Codex events -/

def presignedMarker : String := "X-Amz-Signature="

def redactedUrl : String := "[link expired or unavailable]"

def generatedPrefix : String := "/home/codex/.codex/generated_images/"

/-- The characters `str.split()` splits at. -/
def isPythonSpace (char : Char) : Bool :=
  let code := char.toNat
  (9 ≤ code && code ≤ 13) || (28 ≤ code && code ≤ 32) || code == 0x85 || code == 0xA0 ||
    code == 0x1680 || (0x2000 ≤ code && code ≤ 0x200A) || code == 0x2028 || code == 0x2029 ||
    code == 0x202F || code == 0x205F || code == 0x3000

def containsMarker (text : List Char) : Bool := decide (presignedMarker.toList <:+: text)

def redactForUser (text : String) : String :=
  if containsMarker text.toList then
    let tokens := (text.toList.splitOnP isPythonSpace).filter fun token => !token.isEmpty
    " ".intercalate (tokens.map fun token =>
      if containsMarker token then redactedUrl else String.ofList token)
  else text

def attachmentToPb (attachment : Attachment) : Attachment :=
  if generatedPrefix.toList <+: attachment.source.toList then
    let path := attachment.source.toList.drop generatedPrefix.toList.length
    { attachment with source := "/generated/" ++ String.ofList path }
  else attachment

def chatEventToPb : CodexEvent → ChatEvent
  | .token delta => ⟨.token delta, ""⟩
  | .toolCall record => ⟨.toolCall record, ""⟩
  | .toolResult name text attachments error =>
      ⟨.toolResult name text (attachments.map attachmentToPb)
        (error.map fun error => { error with message := redactForUser error.message }), ""⟩
  | .error code detail =>
      errorEvent code (detail.map fun text => if text = "" then text else redactForUser text)
  | .done finalText => ⟨.done 0 finalText none false, ""⟩

/-- Drop a final text the client has already received token by token. -/
def finalTextForDoneFrame (finalText streamedText : String) : String :=
  if streamedText ≠ "" ∧ finalText = streamedText then "" else finalText

/-! ### The collector -/

structure StreamCollector where
  buffer : String := ""
  toolCalls : List ToolCallRecord := []
  attachments : List Attachment := []
  finalText : String := ""
  doneSeen : Bool := false
deriving DecidableEq

namespace StreamCollector

def absorb (collector : StreamCollector) : CodexEvent → StreamCollector
  | .token delta => { collector with buffer := collector.buffer ++ delta }
  | .toolCall record => { collector with toolCalls := collector.toolCalls ++ [record] }
  | .toolResult _ _ attachments _ =>
      { collector with attachments := collector.attachments ++ attachments }
  | .done finalText => { collector with finalText := finalText, doneSeen := true }
  | .error _ _ => collector

/-- The text a final message gets. -/
def fullText (collector : StreamCollector) : String :=
  if collector.finalText ≠ "" then collector.finalText else collector.buffer

/-- Some text, tool call or attachment was produced. -/
def hasContent (collector : StreamCollector) : Bool :=
  collector.fullText ≠ "" || !collector.toolCalls.isEmpty || !collector.attachments.isEmpty

end StreamCollector
end CodexServer
