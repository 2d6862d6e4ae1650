/-!
# Turn rows

One row of `turns` is the durable state of one assistant exchange. This file has the row and what
each statement of the turn service writes into it: an `UPDATE` whose `WHERE` fails on the row is
`none`, the compare-and-set that tells concurrent actors apart.
-/

namespace CodexServer

inductive TurnStatus
  | starting
  | running
  | completed
  | failed
  | cancelled
deriving DecidableEq

namespace TurnStatus

/-- `TurnStatus.value` -/
def value : TurnStatus → String
  | starting => "STARTING"
  | running => "RUNNING"
  | completed => "COMPLETED"
  | failed => "FAILED"
  | cancelled => "CANCELLED"

/-- `TURN_TERMINAL_STATUSES`. -/
def isTerminal : TurnStatus → Bool
  | completed | failed | cancelled => true
  | starting | running => false

/-- `status IN ('STARTING', 'RUNNING')`, the condition of the partial index and of the updates. -/
def isActive : TurnStatus → Bool
  | starting | running => true
  | completed | failed | cancelled => false

@[simp]
theorem isActive_eq_not_isTerminal (status : TurnStatus) :
    status.isActive = !status.isTerminal := by
  cases status <;> rfl

end TurnStatus

/-- A status that `finalize_once` accepts; any other one is a `ValueError` before the statement. -/
abbrev TerminalStatus := { status : TurnStatus // status.isTerminal = true }

namespace TerminalStatus

def completed : TerminalStatus := ⟨.completed, rfl⟩

def failed : TerminalStatus := ⟨.failed, rfl⟩

def cancelled : TerminalStatus := ⟨.cancelled, rfl⟩

end TerminalStatus

inductive SidecarName
  | admin
  | guest
deriving DecidableEq

structure TurnCreate where
  chatId : Nat
  userId : Nat
  userMessageId : Nat
  sidecar : SidecarName
deriving DecidableEq

structure TurnRow where
  id : Nat
  chatId : Nat
  userId : Nat
  userMessageId : Nat
  assistantMessageId : Option Nat
  status : TurnStatus
  codexThreadId : Option String
  codexTurnId : Option String
  sidecar : Option SidecarName
  streamKey : String
  errorCode : Option String
  errorDetail : Option String
  lastEventId : Option String
  heartbeatAt : Nat
  completedAt : Option Nat
deriving DecidableEq

/-- `_stream_key` -/
def streamKey (turnId : Nat) : String := s!"turn:{turnId}:events"

namespace TurnRow

/-- The row `create_starting` inserts; the stream key is filled in by a second statement. -/
def starting (turnId : Nat) (payload : TurnCreate) (now : Nat) : TurnRow where
  id := turnId
  chatId := payload.chatId
  userId := payload.userId
  userMessageId := payload.userMessageId
  assistantMessageId := none
  status := .starting
  codexThreadId := none
  codexTurnId := none
  sidecar := some payload.sidecar
  streamKey := ""
  errorCode := none
  errorDetail := none
  lastEventId := none
  heartbeatAt := now
  completedAt := none

variable (row : TurnRow)

def setStreamKey : TurnRow := { row with streamKey := CodexServer.streamKey row.id }

def markRunning (threadId codexTurnId : String) (now : Nat) : Option TurnRow :=
  if row.status = .starting then
    some { row with
      status := .running
      codexThreadId := some threadId
      codexTurnId := some codexTurnId
      heartbeatAt := now }
  else none

def attachAssistantMessage (messageId : Nat) : TurnRow :=
  { row with assistantMessageId := some messageId }

def updateLastEvent (eventId : String) : TurnRow := { row with lastEventId := some eventId }

def heartbeat (now : Nat) : Option TurnRow :=
  if row.status.isActive then some { row with heartbeatAt := now } else none

def finalizeOnce (status : TerminalStatus) (errorCode errorDetail : Option String) (now : Nat) :
    Option TurnRow :=
  if row.status.isActive then
    some { row with
      status := status
      errorCode := errorCode
      errorDetail := errorDetail
      completedAt := some now }
  else none

end TurnRow
end CodexServer
