import CodexServer.Chunking
import Mathlib.Data.Rat.Defs

/-!
# The stream message

While the assistant writes, `note_partial` shows a window of the text in one Telegram message that
it edits. `finalize_stream` shows a window of the final text there and returns it, and
`send_response` sends what comes after that. Telegram takes every new message; it refuses an edit
that changes nothing and may refuse any other, and a deletion too. The turn has a bot and a chat.
-/

namespace CodexServer.Progress

open Markdown (Text Forest strip lstrip rfind renderHtml)

/-- `_STREAM_BUBBLE_MAX` -/
def streamBubbleMax : Nat := 3500

/-- `_STREAM_THROTTLE_S` -/
def streamThrottle : ℚ := 1

/-- `text.count` of three backticks. -/
def countFences : Text → Nat
  | '`' :: '`' :: '`' :: text => countFences text + 1
  | _ :: text => countFences text
  | [] => 0

def hasUnclosedFence (text : Text) : Bool := countFences text % 2 = 1

/-- The loop of `_stream_window`: the place after the separator that is taken. -/
def windowCut (window : Text) : List Text → Option Nat
  | [] => none
  | sep :: seps =>
      match rfind sep window window.length with
      | some index => if 0 < index then some (index + sep.length) else windowCut window seps
      | none => windowCut window seps

/-- `_stream_window` -/
def streamWindow (text : Text) : Text :=
  if text.length ≤ streamBubbleMax then text
  else
    let seps := ["\n\n".toList, "\n".toList, ". ".toList, " ".toList]
    text.take ((windowCut (text.take streamBubbleMax) seps).getD streamBubbleMax)

structure Reporter where
  /-- What is in the message, as HTML. -/
  streamMessage : Option Text := none
  streamText : Text := []
  streamThrottleAt : ℚ := 0
  /-- Messages that are in the chat, and of which the reporter knows no more. -/
  forgotten : List Text := []

/-- The messages of the stream in the chat. -/
def Reporter.visible (reporter : Reporter) : List Text :=
  reporter.forgotten ++ reporter.streamMessage.toList

section

variable (parse : Text → Forest true .blocks)

/-- `_upsert_stream_message`, `none` where Telegram raises. -/
def upsertStreamMessage (edits : Bool) (reporter : Reporter) (text : Text) : Option Reporter :=
  match renderHtml parse text with
  | [] => some reporter
  | rendered :: _ =>
      match reporter.streamMessage with
      | none => some { reporter with streamMessage := some rendered }
      | some message =>
          if edits && message ≠ rendered then some { reporter with streamMessage := some rendered }
          else none

/-- `_delete_stream_message` -/
def deleteStreamMessage (deletes : Bool) (reporter : Reporter) : Reporter :=
  match reporter.streamMessage with
  | none => reporter
  | some message =>
      { reporter with
        streamMessage := none
        streamText := []
        forgotten := if deletes then reporter.forgotten else message :: reporter.forgotten }

/-- A call of `note_partial`: the buffer, the time, and whether Telegram takes an edit. -/
structure Note where
  fullText : Text
  now : ℚ
  edits : Bool

/-- `note_partial` -/
def notePartial (reporter : Reporter) (note : Note) : Reporter :=
  if note.fullText.isEmpty || hasUnclosedFence note.fullText then reporter
  else if note.now - reporter.streamThrottleAt < streamThrottle then reporter
  else
    let visible := strip (streamWindow note.fullText)
    if visible.isEmpty || visible = reporter.streamText then reporter
    else if hasUnclosedFence visible then reporter
    else
      match upsertStreamMessage parse note.edits reporter visible with
      | none => reporter
      | some reporter =>
          { reporter with streamText := visible, streamThrottleAt := note.now }

/-- What Telegram answers to `finalize_stream`. -/
structure Answers where
  edits : Bool
  deletes : Bool

/-- `finalize_stream` -/
def finalizeStream (answers : Answers) (reporter : Reporter) (finalText : Text) :
    Text × Reporter :=
  if finalText.isEmpty then ([], reporter)
  else
    let visible := strip (streamWindow finalText)
    if visible.isEmpty then ([], reporter)
    else if hasUnclosedFence visible then ([], deleteStreamMessage answers.deletes reporter)
    else
      match upsertStreamMessage parse answers.edits reporter visible with
      | none => ([], reporter)
      | some reporter => (visible, { reporter with streamText := visible })

def stripCommittedPrefix (text committed : Text) : Text :=
  if committed.isEmpty then text
  else if !committed.isPrefixOf text then text
  else lstrip (text.drop committed.length)

/-- What has been given to `send_text`, and the messages that it has sent. -/
structure Sent where
  text : Text := []
  messages : List Text := []

/-- `send_text` -/
def sendText (text : Text) : Sent := ⟨text, renderHtml parse text⟩

/-- The text of `send_response`, and what `send_voice_reply` returns if it is asked. -/
def sendResponse (finalText committedPrefix : Text) (asVoice spoken : Bool) : Sent :=
  if asVoice && !(strip finalText).isEmpty then
    if spoken then {} else sendText parse finalText
  else
    let remainder := stripCommittedPrefix finalText committedPrefix
    if remainder.isEmpty then {} else sendText parse remainder

end

end CodexServer.Progress
