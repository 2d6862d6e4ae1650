import CodexServer.Ownership
import CodexServer.StreamTurn
import Mathlib.Data.List.DropRight

/-!
# A turn on Telegram

`TurnRunner._run_locked` and the `stream_turn` it calls. The answer goes to Telegram piece by piece,
and `stream_turn` is left with a `CodexTurnTerminal` in every case that it handles itself: here that
is the value it returns, while one that the probe has raised goes through it. What one call sends to
Telegram, in however many messages, is one await.
-/

namespace CodexServer

def TurnStatus.terminal? (status : TurnStatus) : Option TerminalStatus :=
  if h : status.isTerminal = true then some ⟨status, h⟩ else none

namespace Telegram

structure CodexTurnTerminal where
  status : TurnStatus
  errorCode : Option String := none
  detail : Option String := none
deriving DecidableEq

/-- The turn and what `_run_locked` knows about it and its message. -/
structure TurnContext where
  chatId : Nat
  turnId : Nat
  hadVoiceInput : Bool
  idleTimeout : Nat
  threadId : String
  codexTurnId : String

/-- The variables of `_run_locked` and of `stream_turn`. -/
structure TurnLocals where
  collector : StreamCollector := {}
  terminal : Option TurnStatus := none
  terminalError : Option String × Option String := (none, none)

abbrev TelegramCode (α : Type) := Code Empty TurnLocals α

/-- `not text.strip()` -/
def isBlank (text : String) : Bool := text.toList.all isPythonSpace

/-- `text.strip()` -/
def strip (text : String) : String :=
  String.ofList ((text.toList.dropWhile isPythonSpace).rdropWhile isPythonSpace)

section

variable (context : TurnContext)

def send : TelegramCode Unit := await (.external .telegram)

def emitFailure : TelegramCode Unit := await (.emitEvent context.turnId context.chatId .turnFailed)

/-- `persist_assistant_turn` of a partial message. -/
def persistPartial (text : String) (collector : StreamCollector) : TelegramCode Unit := do
  let _ ← await (.persistPartial context.turnId
    ⟨context.chatId, text, true, collector.toolCalls, collector.attachments, none⟩ true)
  pure ()

/-- `persist_assistant_turn` of the answer. -/
def persistAnswer (text : String) (collector : StreamCollector) : TelegramCode Unit := do
  let _ ← await (.persistFinal context.turnId
    ⟨context.chatId, text, false, collector.toolCalls, collector.attachments, none⟩ [])
  pure ()

/-- `progress.note_partial` and `progress.finalize_stream`, which a spoken turn has not. -/
def showStream : TelegramCode Unit :=
  if context.hadVoiceInput then pure () else send

/-! ### The outcomes -/

def handleDone (collector : StreamCollector) : TelegramCode Unit :=
  if isBlank collector.fullText && collector.attachments.isEmpty then do
    send
    emitFailure context
  else do
    send
    persistAnswer context collector.fullText collector

def handleDroppedStream (collector : StreamCollector) : TelegramCode Unit :=
  if isBlank collector.buffer && collector.attachments.isEmpty then do
    send
    emitFailure context
  else do
    send
    persistPartial context (strip collector.buffer) collector
    send

/-! ### `stream_turn` -/

def handleEvent (event : CodexEvent) : TelegramCode (Option CodexTurnTerminal) :=
  match event with
  | .token _ => do
      showStream context
      pure none
  | .toolCall _ | .toolResult .. => do
      send
      pure none
  | .error code detail => do
      send
      emitFailure context
      pure (some ⟨.failed, some (if code = "" then CodexErrorCode.codexError else code), detail⟩)
  | .done _ => do
      let locals ← Async.getLocal
      showStream context
      handleDone context locals.collector
      pure (some ⟨.completed, none, none⟩)

def streamEvent (event : CodexEvent) : TelegramCode (Option CodexTurnTerminal) := do
  orOnRedisError (await (.external .publishBus)) ()
  Async.modifyLocal fun locals => { locals with collector := locals.collector.absorb event }
  handleEvent context event

def persistStreamed (collector : StreamCollector) : TelegramCode Unit :=
  if collector.buffer = "" ∧ collector.toolCalls = [] ∧ collector.attachments = [] then pure ()
  else persistPartial context collector.buffer collector

/-- The stream gave nothing but notifications of other turns. -/
def streamStale : TelegramCode CodexTurnTerminal := do
  interruptBestEffort context.threadId context.codexTurnId
  quarantineThread context.threadId
  let locals ← Async.getLocal
  persistStreamed context locals.collector
  await (.emitEvent context.turnId context.chatId .threadReset)
  send
  pure ⟨.failed, some CodexErrorCode.turnTimeout, some "stale-turn-notifications"⟩

def showDropped (collector : StreamCollector) : TelegramCode Unit :=
  if collector.doneSeen then pure ()
  else do
    showStream context
    handleDroppedStream context collector

/-- The stream ended without a done or an error event. -/
def streamDropped : TelegramCode CodexTurnTerminal := do
  let locals ← Async.getLocal
  showDropped context locals.collector
  pure ⟨.failed, some CodexErrorCode.streamDropped,
    some "codex stream ended without done/error"⟩

/-- `stream_turn`, over the events that a client yields. -/
def streamTurn (client : Program Op Op.Val Fault CodexEvent (Except Exn Unit)) :
    TelegramCode CodexTurnTerminal := do
  let outcome ← Async.attempt (Async.forEach (streamEvent context) client)
  match outcome with
  | .ok (some terminal) => pure terminal
  | .ok none => streamDropped context
  | .error (.fault (.staleTurnStream _)) => streamStale context
  | .error error => Async.throw error

/-! ### `_run_locked` -/

def setTerminal (terminal : CodexTurnTerminal) : TelegramCode Unit :=
  Async.modifyLocal fun locals =>
    { locals with
      terminal := some terminal.status
      terminalError :=
        if terminal.status = .completed then locals.terminalError
        else (terminal.errorCode, terminal.detail) }

def fail (errorCode detail : String) : TelegramCode Unit :=
  setTerminal ⟨.failed, some errorCode, some detail⟩

/-- What is done with the lock. -/
def withOutcome (client : Program Op Op.Val Fault CodexEvent (Except Exn Unit)) :
    LockAcquireOutcome → TelegramCode Unit
  | .acquired => do
      await (.external .openCodex)
      let terminal ← Async.tryFinally (streamTurn context client) (await (.external .closeCodex))
      setTerminal terminal
  | outcome => do
      fail CodexErrorCode.turnBusy ("lock unavailable: " ++ outcome.value)
      send

/-- `auto_reset_thread` -/
def autoResetThread : TelegramCode Unit := do
  let active ← await (.getActiveForChat context.chatId)
  quarantineThread ((active.bind TurnRow.codexThreadId).getD "")
  await (.emitEvent context.turnId context.chatId .threadReset)

def onTimeout : TelegramCode Unit := do
  emitFailure context
  autoResetThread context
  send

def onUnexpected : TelegramCode Unit := do
  send
  emitFailure context

/-- The `except` clauses. -/
def turnFailed : Exn → TelegramCode Unit
  | .codexTurnTerminal status raw =>
      setTerminal ⟨status, if status = .completed then none else some ("codex_reported_" ++ raw),
        some raw⟩
  | .fault (.timeout _) => do
      fail CodexErrorCode.turnTimeout ("idle>" ++ toString context.idleTimeout ++ ".0s")
      onTimeout context
  | .fault .cancelled => do
      Async.modifyLocal fun locals => { locals with terminal := some .cancelled }
      Async.throw (.fault .cancelled)
  | error => do
      fail CodexErrorCode.codexError error.text
      onUnexpected context

/-- The `finally` clause. `finalize_once` takes no other status than a terminal one. -/
def turnFinally : TelegramCode Unit := do
  let locals ← Async.getLocal
  match locals.terminal with
  | none => pure ()
  | some status =>
      match status.terminal? with
      | some terminal => do
          let _ ← await (.finalizeOnce context.turnId terminal locals.terminalError.1
            locals.terminalError.2)
          pure ()
      | none => Async.throw (.fault (.other "finalize_once expects terminal status"))

/-- `_run_locked` -/
def runLocked (client : Program Op Op.Val Fault CodexEvent (Except Exn Unit)) : TelegramCode Unit :=
  Async.tryFinally
    (Async.tryCatch
      (Locks.holdTurnLocks context.chatId context.turnId (withOutcome context client))
      (turnFailed context))
    (turnFinally context)

end
end Telegram
end CodexServer
