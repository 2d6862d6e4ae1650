import CodexServer.TurnRow
import CodexServer.Library.Versioned

/-!
# The turn service on the table of turns

Transaction boundaries are the caller's, so a service method is the statements it issues and any
number of sessions may stand between two of them. `turns` is the table's schema: the statements, and
the partial unique index `turns_active_per_chat`.
-/

open Versioned

namespace CodexServer

/-- The `UPDATE` statements on `turns`, with the values their caller bound. -/
inductive TurnUpdate
  | setStreamKey
  | markRunning (threadId codexTurnId : String) (now : Nat)
  | attachAssistantMessage (messageId : Nat)
  | updateLastEvent (eventId : String)
  | heartbeat (now : Nat)
  | finalizeOnce (status : TerminalStatus) (errorCode errorDetail : Option String) (now : Nat)
deriving DecidableEq

def TurnUpdate.apply : TurnUpdate → TurnRow → Option TurnRow
  | setStreamKey, row => some row.setStreamKey
  | markRunning threadId codexTurnId now, row => row.markRunning threadId codexTurnId now
  | attachAssistantMessage messageId, row => some (row.attachAssistantMessage messageId)
  | updateLastEvent eventId, row => some (row.updateLastEvent eventId)
  | heartbeat now, row => row.heartbeat now
  | finalizeOnce status errorCode errorDetail now, row =>
      row.finalizeOnce status errorCode errorDetail now

structure TurnInsert where
  payload : TurnCreate
  now : Nat
deriving DecidableEq

/-- A statement that changed a row. -/
inductive TurnEffect
  | created (turnId : Nat) (insert : TurnInsert)
  | updated (statement : TurnUpdate)
deriving DecidableEq

def turns : Schema TurnRow TurnEffect TurnUpdate TurnInsert Nat where
  update statement row := (statement.apply row).map fun row => (row, .updated statement)
  insert insert turnId := (TurnRow.starting turnId insert.payload insert.now, .created turnId insert)
  live row := row.status.isActive
  group row := row.chatId

abbrev TurnTable (Session : Type) := Table Session TurnRow TurnEffect

inductive ValueError
  | notTerminal (status : TurnStatus)
deriving DecidableEq

inductive IntegrityError
  | activeTurnExists
deriving DecidableEq

namespace TurnService

variable {Session : Type} [DecidableEq Session] (session : Session)

/-- `INSERT`, then the stream key that needs the new id. An integrity error leaves the session's
transaction rolled back. `none`, here and below: the statement waits for another session. -/
def createStarting (payload : TurnCreate) (now : Nat) (table : TurnTable Session) :
    Option (Except IntegrityError TurnRow × TurnTable Session) :=
  match turns.execInsert table session ⟨payload, now⟩ with
  | some (some turnId, table) =>
      match turns.execUpdate table session turnId .setStreamKey with
      | some (_, table) => (table.view session turnId).map fun row => (.ok row, table)
      | none => none
  | some (none, table) => some (.error .activeTurnExists, table)
  | none => none

def tryCreateStarting (payload : TurnCreate) (now : Nat) (table : TurnTable Session) :
    Option (Option TurnRow × TurnTable Session) :=
  match createStarting session payload now table with
  | some (.ok row, table) => some (some row, table)
  | some (.error .activeTurnExists, table) => some (none, table.rollback session)
  | none => none

variable (turnId : Nat)

/-- CAS STARTING → RUNNING. -/
def markRunning (codexThreadId codexTurnId : String) (now : Nat) (table : TurnTable Session) :
    Option (Bool × TurnTable Session) :=
  turns.execUpdate table session turnId (.markRunning codexThreadId codexTurnId now)

def attachAssistantMessage (messageId : Nat) (table : TurnTable Session) :
    Option (TurnTable Session) :=
  (turns.execUpdate table session turnId (.attachAssistantMessage messageId)).map Prod.snd

def updateLastEvent (eventId : String) (table : TurnTable Session) : Option (TurnTable Session) :=
  (turns.execUpdate table session turnId (.updateLastEvent eventId)).map Prod.snd

def heartbeat (now : Nat) (table : TurnTable Session) : Option (Bool × TurnTable Session) :=
  turns.execUpdate table session turnId (.heartbeat now)

/-- The first of the concurrent callers gets `true`. -/
def finalizeOnce (status : TurnStatus) (errorCode errorDetail : Option String) (now : Nat)
    (table : TurnTable Session) : Except ValueError (Option (Bool × TurnTable Session)) :=
  if hterminal : status.isTerminal then
    .ok (turns.execUpdate table session turnId
      (.finalizeOnce ⟨status, hterminal⟩ errorCode errorDetail now))
  else .error (.notTerminal status)

end TurnService
end CodexServer
