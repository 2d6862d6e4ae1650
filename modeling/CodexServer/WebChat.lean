import CodexServer.ChatEvent
import Mathlib.Logic.Function.Basic

/-!
# The chat page

`Chat.svelte` keeps one set of view variables for the selected chat. Each asynchronous function of
it is a flow here that rests at an await, with what it has captured; a step is an action of the user
or what one flow does from the end of its await to the next. A response of `listChats` that selects
a chat is an action of the user too. Banners, scrolling, the sidebar and the times are left out.
-/

namespace CodexServer.WebChat

abbrev Text := List Char

inductive ClientId
  /-- A `resume-` id: the chat, and the time. -/
  | resume (chatId stamp : Nat)
  | uuid (value : Nat)
deriving DecidableEq

/-- A message of the list. Of its meta, what the page reads. -/
structure Row where
  id : Int
  /-- None is `0n`. -/
  chatId : Option Nat
  role : Nat
  text : Text
  clientId : Option ClientId := none
  isPartial : Bool := false
  hasCalls : Bool := false
  hasUploads : Bool := false
deriving DecidableEq

/-- What `trim` takes away. -/
def isSpace (c : Char) : Bool :=
  let code := c.toNat
  (9 ≤ code && code ≤ 13) || code == 32 || code == 0xA0 || code == 0x1680 ||
    (0x2000 ≤ code && code ≤ 0x200A) || code == 0x2028 || code == 0x2029 || code == 0x202F ||
    code == 0x205F || code == 0x3000 || code == 0xFEFF

def isEmptyAssistantMessage (row : Row) : Bool :=
  if row.role ≠ 2 || !row.text.all isSpace then false
  else !row.isPartial && !row.hasCalls && !row.hasUploads

inductive ToolStatus
  | running
  | done
  | error
deriving DecidableEq

structure ToolEvent where
  name : String
  args : Option String := none
  text : Option String := none
  error : Option ToolError := none
  status : ToolStatus
deriving DecidableEq

/-- What a frame of a stream tells the page. -/
inductive Frame
  | turnStarted (turnId : Nat)
  | token (delta : Text)
  | toolCall (name args : String)
  | toolResult (name text : String) (attachments : List Attachment) (error : Option ToolError)
  | done (finalText : Text) (message : Option Row) (steeredFallback : Bool)
  | error (code : String) (detail : Option String)
deriving DecidableEq

structure Typewriter where
  buffer : Text := []
  displayed : Text := []
  typing : Bool := false
  generation : Nat := 0
  /-- The flow that `drained` made to wait. -/
  resolveDone : Option Nat := none
deriving DecidableEq

namespace Typewriter

variable (typer : Typewriter)

def fullText : Text := typer.displayed ++ typer.buffer

/-- The first character of the buffer is typed. -/
def typeFirst : Typewriter :=
  match typer.buffer with
  | [] => typer
  | c :: buffer => { typer with displayed := typer.displayed ++ [c], buffer := buffer }

/-- `flush`, before the promise is resolved. -/
def flushed : Typewriter :=
  { typer with displayed := typer.displayed ++ typer.buffer, buffer := [] }

/-- `reset`, before the promise is resolved. -/
def cleared : Typewriter :=
  { typer with
    generation := typer.generation + 1, buffer := [], displayed := [], typing := false }

end Typewriter

structure LiveDraft where
  clientId : ClientId
  messages : List Row
  text : Text
  streamedPrefix : Text
  lastEventId : String
  serverTurnId : Option Nat
  tools : List ToolEvent
  attachments : List Attachment
deriving DecidableEq

/-! ### Flows -/

/-- Where a flow rests that reads a stream. -/
inductive Phase
  | awaiting
  | ticking
  /-- In `await typer.drained()`, with the done frame. -/
  | draining (finalText : Text) (message : Option Row)
  /-- The promise of `drained` is resolved. -/
  | drained (finalText : Text) (message : Option Row)
deriving DecidableEq

def Phase.resolve : Phase → Phase
  | draining finalText message => drained finalText message
  | phase => phase

/-- `resumeActiveTurn`; its signal may be aborted. -/
structure Resume where
  chatId : Nat
  aborted : Bool := false
  clientId : ClientId
  placeholderAdded : Bool
  lastEventId : String
  serverTurnId : Option Nat
  tools : List ToolEvent
  attachments : List Attachment
  phase : Phase := .awaiting
deriving DecidableEq

/-- The beginning of `resumeActiveTurn`. -/
def Resume.start (chatId : Nat) (draft : Option LiveDraft) (stamp : Nat) : Resume :=
  match draft with
  | some draft =>
      { chatId := chatId, clientId := draft.clientId, placeholderAdded := true
        lastEventId := draft.lastEventId, serverTurnId := draft.serverTurnId
        tools := draft.tools, attachments := draft.attachments }
  | none =>
      { chatId := chatId, clientId := .resume chatId stamp, placeholderAdded := false
        lastEventId := "", serverTurnId := none, tools := [], attachments := [] }

/-- The stream that `send` reads: `runTurn`, the `tailTurn` after it, or the one of the `catch`. -/
inductive Stage
  | run
  | tail
  | retry
deriving DecidableEq

/-- `send`, once the turn is opened. -/
structure Send where
  turnId : Nat
  chatAtSend : Option Nat
  clientId : ClientId
  lastEventId : String := ""
  serverTurnId : Option Nat := none
  terminalSeen : Bool := false
  stage : Stage := .run
  phase : Phase := .awaiting
deriving DecidableEq

inductive Flow
  /-- `loadChatMessages`, with the `send` that called it to recover. -/
  | listing (chatId : Nat) (caller : Option Send)
  | older (chatId : Nat) (beforeId : Int)
  | resume (flow : Resume)
  /-- `send` in its `steerTurn` or `interruptTurn`. -/
  | steering (chatId : Nat) (text : Text)
  | interrupting (chatId : Nat) (text : Text)
  | send (flow : Send)
  /-- `interrupt` in its `interruptTurn`. -/
  | stopping (chatId : Nat)
  /-- The loop of the typewriter in its delay. The chat is the one that was selected. -/
  | typing (generation : Nat) (chatId : Option Nat)
deriving DecidableEq

/-- The chat that a flow belongs to. -/
def Flow.chatId : Flow → Option Nat
  | listing chatId _ | older chatId _ | steering chatId _ | interrupting chatId _
  | stopping chatId => some chatId
  | resume flow => some flow.chatId
  | send flow => flow.chatAtSend
  | typing _ chatId => chatId

def Flow.resolve : Flow → Flow
  | resume flow => resume { flow with phase := flow.phase.resolve }
  | send flow => send { flow with phase := flow.phase.resolve }
  | flow => flow

def Flow.abort : Flow → Flow
  | resume flow => resume { flow with aborted := true }
  | flow => flow

/-! ### The page -/

/-- What is shown of the selected chat. -/
structure View where
  messages : List Row := []
  streamingClientId : Option ClientId := none
  tools : List ToolEvent := []
  attachments : List Attachment := []
  typer : Typewriter := {}
deriving DecidableEq

structure Page extends View where
  selected : Option Nat := none
  busy : Bool := false
  activeTurnId : Nat := 0
  streamedPrefix : Text := []
  liveDrafts : Nat → Option LiveDraft := fun _ => none
  placeholderSeq : Int := -1
  loadingOlder : Bool := false
  hasMoreOlder : Bool := false
  /-- The flow that the controller aborts. -/
  resumeAbort : Option Nat := none
  flows : Nat → Option Flow := fun _ => none
  nextFlow : Nat := 0

/-- The rows that are drawn. -/
def View.displayMessages (view : View) : List Row :=
  let visible := view.messages.filter fun row =>
    (view.streamingClientId.isSome && row.clientId = view.streamingClientId) ||
      !isEmptyAssistantMessage row
  if view.streamingClientId.isNone then visible
  else visible.map fun row =>
    if row.clientId = view.streamingClientId then { row with text := view.typer.displayed } else row

namespace Page

variable (page : Page)

def setFlow (id : Nat) (flow : Option Flow) : Page :=
  { page with flows := Function.update page.flows id flow }

def spawn (flow : Flow) : Page :=
  { page with
    flows := Function.update page.flows page.nextFlow (some flow)
    nextFlow := page.nextFlow + 1 }

def clearStream : Page := { page with streamingClientId := none, streamedPrefix := [] }

def clearTools : Page := { page with tools := [], attachments := [] }

/-- The drop of the rows of a client id. -/
def dropRows (clientId : ClientId) : Page :=
  { page with messages := page.messages.filter fun row => row.clientId ≠ some clientId }

/-! ### The typewriter -/

def setTyper (typer : Typewriter) : Page := { page with typer := typer }

/-- `resolveDone?.()` -/
def resolveDone : Page :=
  match page.typer.resolveDone with
  | none => page
  | some id =>
      { page.setTyper { page.typer with resolveDone := none } with
        flows := Function.update page.flows id ((page.flows id).map Flow.resolve) }

def typerReset : Page := (page.setTyper page.typer.cleared).resolveDone

def typerFlush : Page :=
  if page.typer.buffer.isEmpty then page else (page.setTyper page.typer.flushed).resolveDone

def typerPush (delta : Text) : Page :=
  if delta.isEmpty then page
  else
    let typer := { page.typer with buffer := page.typer.buffer ++ delta }
    if typer.typing then page.setTyper typer
    else (page.setTyper { typer with typing := true }.typeFirst).spawn
      (.typing typer.generation page.selected)

/-- The loop after its delay. -/
def typeOn (id generation : Nat) : Page :=
  if generation ≠ page.typer.generation then page.setFlow id none
  else if !page.typer.buffer.isEmpty then page.setTyper page.typer.typeFirst
  else ((page.setTyper { page.typer with typing := false }).setFlow id none).resolveDone

/-! ### Drafts -/

/-- `saveLiveDraft`, after its flush if there is one. -/
def saveLiveDraft (chatId : Nat) (clientId : ClientId) (lastEventId : String)
    (serverTurnId : Option Nat) : Page :=
  { page with liveDrafts := Function.update page.liveDrafts chatId (some
      { clientId := clientId
        messages := page.messages
        text := page.typer.fullText
        streamedPrefix := page.streamedPrefix
        lastEventId := lastEventId
        serverTurnId := serverTurnId
        tools := page.tools
        attachments := page.attachments }) }

def dropLiveDraft (chatId : Option Nat) : Page :=
  match chatId with
  | none => page
  | some chatId => { page with liveDrafts := Function.update page.liveDrafts chatId none }

def saveCurrentLiveDraft : Page :=
  match page.selected, page.streamingClientId with
  | some chatId, some clientId =>
      let existing := page.liveDrafts chatId
      page.typerFlush.saveLiveDraft chatId clientId ((existing.map (·.lastEventId)).getD "")
        (existing.bind (·.serverTurnId))
  | _, _ => page

def restoreLiveDraft (draft : LiveDraft) : Page :=
  let restored := { page with
    messages := draft.messages
    streamingClientId := some draft.clientId
    streamedPrefix := draft.streamedPrefix
    tools := draft.tools
    attachments := draft.attachments
    busy := true }
  (restored.typerReset.typerPush draft.text).typerFlush

end Page

/-! ### Texts of a done frame -/

def suffixAfterPrefix (before source current : Text) : Text :=
  if before.isEmpty then if source.isEmpty then current else source
  else if source.isEmpty then current
  else if before.isPrefixOf source then
    if (source.drop before.length).isEmpty then current else source.drop before.length
  else if current.isEmpty then source else current

namespace Page

variable (page : Page)

def commitDone (persisted : Option Row) (doneText : Text) (clientId : ClientId) : Page :=
  match persisted with
  | none => { page with messages := page.messages.map fun row =>
      if row.clientId = some clientId then { row with text := doneText } else row }
  | some persisted =>
      let rendered := { persisted with text := doneText }
      if page.messages.any fun row => row.clientId = some clientId then
        if doneText.isEmpty then page.dropRows clientId
        else { page with messages := page.messages.map fun row =>
          if row.clientId = some clientId then rendered else row }
      else if !doneText.isEmpty && !page.messages.any (fun row => row.id = persisted.id) then
        { page with messages := page.messages ++ [rendered] }
      else page

/-- The text that the row of a done frame gets. -/
def doneText (finalText : Text) (persisted : Option Row) : Text :=
  let text := (persisted.map Row.text).getD []
  suffixAfterPrefix page.streamedPrefix (if text.isEmpty then finalText else text)
    page.typer.displayed

/-- The wait of a flow in `typer.drained()`. -/
def drain (id : Nat) (finalText : Text) (message : Option Row) : Page × Phase :=
  if page.typer.buffer.isEmpty && !page.typer.typing then (page, .drained finalText message)
  else (page.setTyper { page.typer with resolveDone := some id }, .draining finalText message)

end Page

/-- The tools after a result. -/
def recordResult (tools : List ToolEvent) (name text : String) (error : Option ToolError) :
    List ToolEvent :=
  let status := if error.isSome then ToolStatus.error else .done
  match tools.findIdx? fun tool => tool.name = name && tool.status = .running with
  | some index => tools.modify index fun tool =>
      { tool with text := some text, error := error, status := status }
  | none => tools ++ [{ name := name, text := some text, error := error, status := status }]

/-! ### `resumeActiveTurn` -/

namespace Page

variable (page : Page)

/-- `resumeAbort?.abort()` -/
def abortResume : Page :=
  match page.resumeAbort with
  | none => page
  | some id =>
      { page with
        flows := Function.update page.flows id ((page.flows id).map Flow.abort)
        resumeAbort := none }

/-- The call of `resumeActiveTurn` with a controller of its own. -/
def startResume (chatId : Nat) (draft : Option LiveDraft) (stamp : Nat) : Page :=
  { page.abortResume.spawn (.resume (.start chatId draft stamp)) with
    resumeAbort := some page.nextFlow }

def ensurePlaceholder (flow : Resume) : Page :=
  if flow.placeholderAdded || flow.aborted then page
  else
    let placeholder := { id := page.placeholderSeq, chatId := some flow.chatId, role := 2
                         text := [], clientId := some flow.clientId }
    { page with
      messages := page.messages ++ [placeholder]
      placeholderSeq := page.placeholderSeq - 1
      streamingClientId := some flow.clientId
      busy := true }.typerReset

def cleanupResumeState (clientId : ClientId) : Page :=
  if page.streamingClientId ≠ some clientId then page
  else
    { page with
      streamingClientId := none
      tools := []
      attachments := []
      busy := false }.typerReset

/-- The end of a `case`: the checkpoint and the `tick`. -/
def checkpoint (id : Nat) (flow : Resume) : Page :=
  (page.saveLiveDraft flow.chatId flow.clientId flow.lastEventId flow.serverTurnId).setFlow id
    (some (.resume { flow with placeholderAdded := true, phase := .ticking }))

/-- A frame of the tail. -/
def resumeFrame (id : Nat) (flow : Resume) (eventId : String) (frame : Frame) : Page :=
  if page.selected ≠ some flow.chatId then page.setFlow id none
  else
    let flow := if eventId = "" then flow else { flow with lastEventId := eventId }
    match frame with
    | .turnStarted turnId =>
        (page.ensurePlaceholder flow).checkpoint id { flow with serverTurnId := some turnId }
    | .token delta => ((page.ensurePlaceholder flow).typerPush delta).checkpoint id flow
    | .toolCall name args =>
        let tool : ToolEvent := { name := name, args := some args, status := .running }
        let tools := flow.tools ++ [tool]
        { page.ensurePlaceholder flow with tools := tools }.checkpoint id
          { flow with tools := tools }
    | .toolResult name text attachments error =>
        let tools := recordResult flow.tools name text error
        let attachments := flow.attachments ++ attachments
        { page.ensurePlaceholder flow with
          tools := tools, attachments := attachments }.checkpoint id
            { flow with tools := tools, attachments := attachments }
    | .done finalText message _ =>
        let drained := page.drain id finalText message
        drained.1.setFlow id (some (.resume { flow with phase := drained.2 }))
    | .error .. =>
        ((page.dropLiveDraft (some flow.chatId)).dropRows flow.clientId).cleanupResumeState
          flow.clientId |>.setFlow id none

/-- The rest of its `done`. -/
def resumeDone (id : Nat) (flow : Resume) (finalText : Text) (message : Option Row) : Page :=
  ((page.commitDone message (page.doneText finalText message) flow.clientId).dropLiveDraft
    (some flow.chatId)).cleanupResumeState flow.clientId |>.setFlow id none

/-- Its `catch`. -/
def resumeFailed (id : Nat) (flow : Resume) : Page :=
  ((page.dropRows flow.clientId).cleanupResumeState flow.clientId).setFlow id none

/-! ### `loadChatMessages` -/

/-- The `finally` of `send`. -/
def finish (caller : Option Send) : Page :=
  match caller with
  | some flow => if flow.turnId = page.activeTurnId then { page with busy := false } else page
  | none => page

def loadChatMessages (chatId : Nat) (caller : Option Send) : Page :=
  let page := { page with selected := some chatId }
  match page.liveDrafts chatId with
  | some draft => ((page.restoreLiveDraft draft).startResume chatId (some draft) 0).finish caller
  | none => { page with streamingClientId := none }.spawn (.listing chatId caller)

def pageSize : Nat := 10

/-- The response of its `listMessages`. -/
def listed (id chatId : Nat) (caller : Option Send) (rows : List Row) (stamp : Nat) : Page :=
  let shown := { page with messages := rows, hasMoreOlder := decide (pageSize ≤ rows.length) }
  ((shown.setFlow id none).startResume chatId none stamp).finish caller

def selectChat (chatId : Nat) : Page :=
  let left := { page.saveCurrentLiveDraft with
    activeTurnId := page.activeTurnId + 1
    busy := false }
  left.clearStream.clearTools.typerReset.loadChatMessages chatId none

/-! ### `send` -/

/-- What `send` does to the view when its turn is over without an answer. -/
def abandon (flow : Send) : Page :=
  ((page.dropRows flow.clientId).dropLiveDraft flow.chatAtSend).clearStream

/-- A `send` that goes on to the next frame. -/
def goOn (id : Nat) (flow : Send) : Page :=
  page.setFlow id (some (.send { flow with phase := .ticking }))

def sendCheckpoint (id : Nat) (flow : Send) : Page :=
  match flow.chatAtSend with
  | some chatId =>
      (page.saveLiveDraft chatId flow.clientId flow.lastEventId flow.serverTurnId).goOn id flow
  | none => page.goOn id flow

/-- The rest of the final text goes to the typewriter. -/
def pushFinal (finalText : Text) : Page :=
  let finalText :=
    if !page.streamedPrefix.isEmpty && page.streamedPrefix.isPrefixOf finalText then
      finalText.drop page.streamedPrefix.length
    else finalText
  let already := page.typer.displayed
  if already.length < finalText.length && already.isPrefixOf finalText then
    page.typerPush (finalText.drop already.length)
  else page

/-- A frame of `processStream`. -/
def sendFrame (id : Nat) (flow : Send) (eventId : String) (frame : Frame) : Page :=
  if flow.turnId ≠ page.activeTurnId then page.setFlow id none
  else
    let flow := if eventId = "" then flow else { flow with lastEventId := eventId }
    match frame with
    | .turnStarted turnId => page.sendCheckpoint id { flow with serverTurnId := some turnId }
    | .token delta => (page.typerPush delta).sendCheckpoint id flow
    | .toolCall name args =>
        let tool : ToolEvent := { name := name, args := some args, status := .running }
        { page with tools := page.tools ++ [tool] }.sendCheckpoint id flow
    | .toolResult name text attachments error =>
        { page with
          tools := recordResult page.tools name text error
          attachments := page.attachments ++ attachments }.sendCheckpoint id flow
    | .done finalText message steeredFallback =>
        if steeredFallback then (page.abandon flow).clearTools.typerReset.goOn id flow
        else
          let drained := (page.pushFinal finalText).drain id finalText message
          drained.1.setFlow id (some (.send { flow with phase := drained.2 }))
    | .error .. => (page.abandon flow).goOn id { flow with terminalSeen := true }

/-- The rest of its `done`. -/
def sendDone (id : Nat) (flow : Send) (finalText : Text) (message : Option Row) : Page :=
  let done := page.commitDone message (page.doneText finalText message) flow.clientId
  (done.dropLiveDraft flow.chatAtSend).clearStream.clearTools.typerReset.goOn id
    { flow with terminalSeen := true }

/-- The flow is over. -/
def sendOver (id : Nat) (flow : Send) : Page := (page.setFlow id none).finish (some flow)

def recoverSilentEof (id : Nat) (flow : Send) : Page :=
  let recovered := (page.abandon flow).clearTools.typerReset
  match page.selected with
  | some chatId => (recovered.setFlow id none).loadChatMessages chatId (some flow)
  | none => recovered.sendOver id flow

/-- The stream ends. -/
def sendEnded (id : Nat) (flow : Send) : Page :=
  if flow.terminalSeen || flow.turnId ≠ page.activeTurnId then page.sendOver id flow
  else
    match flow.stage with
    | .run =>
        if page.selected.isNone then page.sendOver id flow
        else page.setFlow id (some (.send { flow with stage := .tail, phase := .awaiting }))
    | .tail | .retry => page.recoverSilentEof id flow

/-- The stream raises, or the reload of the list. -/
def sendFailed (id : Nat) (flow : Send) : Page :=
  if flow.turnId ≠ page.activeTurnId then page.sendOver id flow
  else if flow.stage ≠ .retry && page.selected.isSome then
    page.setFlow id (some (.send { flow with
      stage := .retry, terminalSeen := false, phase := .awaiting }))
  else (page.abandon flow).sendOver id flow

/-- The view of a turn that begins, with the rows that are put in. -/
def openTurn (clientId : ClientId) (rows : List Row) : Page :=
  { page with
    activeTurnId := page.activeTurnId + 1
    busy := true
    tools := []
    attachments := []
    streamedPrefix := []
    streamingClientId := some clientId
    placeholderSeq := page.placeholderSeq - 1
    messages := page.messages ++ rows }

/-- `send` from the opening of the turn on. -/
def launch (text : Text) (uuid stamp : Nat) : Page :=
  let clientId := ClientId.uuid uuid
  let userMessage : Row := { id := stamp, chatId := page.selected, role := 1, text := text }
  let placeholder : Row :=
    { id := page.placeholderSeq, chatId := page.selected, role := 2, text := []
      clientId := some clientId }
  (page.abortResume.openTurn clientId [userMessage, placeholder]).typerReset.spawn
    (.send { turnId := page.activeTurnId + 1, chatAtSend := page.selected, clientId := clientId })

def send (text : Text) (hasUploads : Bool) (uuid stamp : Nat) : Page :=
  match page.selected, page.busy with
  | some chatId, true =>
      if hasUploads then page.abortResume.spawn (.interrupting chatId text)
      else page.spawn (.steering chatId text)
  | _, _ => page.launch text uuid stamp

/-- The list with the steered message: before the placeholder of the running turn, after what is
already there of the answer. -/
def insertSteered (partialAssistant : Option Row) (userMessage : Row) : List Row :=
  let index := page.streamingClientId.bind fun clientId =>
    page.messages.findIdx? fun row => row.clientId = some clientId
  match index with
  | some index =>
      page.messages.take index ++ (partialAssistant.toList ++ userMessage ::
        page.messages.drop index)
  | none => page.messages ++ [userMessage]

/-- The steer is accepted. -/
def steered (chatId : Nat) (text : Text) (stamp : Nat) : Page :=
  let userMessage : Row := { id := stamp, chatId := some chatId, role := 1, text := text }
  let flushed := page.typerFlush
  let partialText := flushed.typer.displayed
  if partialText.all isSpace then
    let inserted := { flushed with messages := flushed.insertSteered none userMessage }
    inserted.saveCurrentLiveDraft
  else
    let partialAssistant : Row :=
      { id := flushed.placeholderSeq, chatId := some chatId, role := 2, text := partialText
        isPartial := true }
    let inserted := { flushed with
      placeholderSeq := flushed.placeholderSeq - 1
      streamedPrefix := flushed.streamedPrefix ++ partialText
      messages := flushed.insertSteered (some partialAssistant) userMessage }
    inserted.typerReset.saveCurrentLiveDraft

/-! ### The other actions -/

/-- `loadOlderMessages` up to its request. -/
def loadOlderMessages : Option Page :=
  match page.selected, page.messages with
  | some chatId, oldest :: _ =>
      if page.loadingOlder || !page.hasMoreOlder then none
      else some ({ page with loadingOlder := true }.spawn (.older chatId oldest.id))
  | _, _ => none

def olderListed (id : Nat) (rows : List Row) : Page :=
  { page with
    messages := rows ++ page.messages
    hasMoreOlder := decide (pageSize ≤ rows.length)
    loadingOlder := false }.setFlow id none

/-- The rows of an interrupted turn: the text that is there is kept. -/
def snapshot : List Row :=
  match page.streamingClientId with
  | none => page.messages
  | some clientId =>
      if page.typer.displayed.isEmpty then
        page.messages.filter fun row => row.clientId ≠ some clientId
      else page.messages.map fun row =>
        if row.clientId = some clientId then { row with text := page.typer.displayed } else row

def closeTurn : Page :=
  { page with activeTurnId := page.activeTurnId + 1, messages := page.snapshot }.clearStream

def interrupt : Option Page :=
  page.selected.map fun chatId => page.abortResume.closeTurn.typerReset.spawn (.stopping chatId)

end Page

/-! ### Steps -/

inductive Action
  | select (chatId : Nat)
  /-- With the uuid it draws and the time. -/
  | send (text : Text) (hasUploads : Bool) (uuid stamp : Nat)
  | loadOlder
  | interrupt
  /-- `listMessages` answers, with the time. -/
  | listed (id : Nat) (rows : List Row) (stamp : Nat)
  | listFailed (id : Nat)
  /-- `steerTurn` or `interruptTurn` answers or fails. -/
  | steered (id : Nat) (accepted : Bool) (uuid stamp : Nat)
  | stopped (id : Nat) (succeeds : Bool)
  | frame (id : Nat) (eventId : String) (frame : Frame)
  | ended (id : Nat)
  | failed (id : Nat)
  | ticked (id : Nat)
  | drained (id : Nat)
  | typed (id : Nat)
deriving DecidableEq

/-- The flow whose await is over. -/
def Action.flow : Action → Option Nat
  | select _ | send .. | loadOlder | interrupt => none
  | listed id .. | listFailed id | steered id .. | stopped id _ | frame id .. | ended id
  | failed id | ticked id | drained id | typed id => some id

/-- What a flow does after its await. An aborted stream only raises. -/
def resumed (page : Page) (id : Nat) : Flow → Action → Option Page
  | .listing chatId caller, .listed _ rows stamp => some (page.listed id chatId caller rows stamp)
  | .listing _ none, .listFailed _ => some (page.setFlow id none)
  | .listing _ (some caller), .listFailed _ => some (page.sendFailed id caller)
  | .older .., .listed _ rows _ => some (page.olderListed id rows)
  | .older .., .listFailed _ => some ({ page with loadingOlder := false }.setFlow id none)
  | .steering _ text, .steered _ accepted uuid stamp =>
      let page := page.setFlow id none
      match accepted, page.selected with
      | true, some chatId => some (page.steered chatId text stamp)
      | true, none => some page
      | false, _ => some (page.launch text uuid stamp)
  | .interrupting _ text, .steered _ _ uuid stamp =>
      some ((page.setFlow id none).launch text uuid stamp)
  | .stopping _, .stopped _ succeeds =>
      some ({ page with busy := page.busy && !succeeds }.setFlow id none)
  | .resume flow, .frame _ eventId frame =>
      if flow.phase = .awaiting && !flow.aborted then some (page.resumeFrame id flow eventId frame)
      else none
  | .resume flow, .ended _ =>
      if flow.phase = .awaiting && !flow.aborted then some (page.setFlow id none) else none
  | .resume flow, .failed _ =>
      if flow.phase = .awaiting then some (page.resumeFailed id flow) else none
  | .resume flow, .ticked _ =>
      if flow.phase = .ticking then
        some (page.setFlow id (some (.resume { flow with phase := .awaiting })))
      else none
  | .resume flow, .drained _ =>
      match flow.phase with
      | .drained finalText message => some (page.resumeDone id flow finalText message)
      | _ => none
  | .send flow, .frame _ eventId frame =>
      if flow.phase = .awaiting then some (page.sendFrame id flow eventId frame) else none
  | .send flow, .ended _ =>
      if flow.phase = .awaiting then some (page.sendEnded id flow) else none
  | .send flow, .failed _ =>
      if flow.phase = .awaiting then some (page.sendFailed id flow) else none
  | .send flow, .ticked _ =>
      if flow.phase = .ticking then
        some (page.setFlow id (some (.send { flow with phase := .awaiting })))
      else none
  | .send flow, .drained _ =>
      match flow.phase with
      | .drained finalText message => some (page.sendDone id flow finalText message)
      | _ => none
  | .typing generation _, .typed _ => some (page.typeOn id generation)
  | _, _ => none

def step (page : Page) (action : Action) : Option Page :=
  match action with
  | .select chatId => some (page.selectChat chatId)
  | .send text hasUploads uuid stamp => some (page.send text hasUploads uuid stamp)
  | .loadOlder => page.loadOlderMessages
  | .interrupt => page.interrupt
  | action =>
      action.flow.bind fun id => (page.flows id).bind fun flow => resumed page id flow action

end CodexServer.WebChat
