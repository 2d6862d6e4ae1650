import Mathlib.Logic.Function.Basic
import CodexServer.TurnService
import CodexServer.Library.Notices

/-!
# Chat activity

Who has a chat open hears of turns that start and end. A publish waits for the commit in a listener
on the session: a commit fires all the listeners the session has, and nothing else takes them away.
-/

open Versioned

namespace CodexServer.Activity

inductive ActivityEvent
  | turnStarted (userId chatId turnId : Nat)
  | turnEnded (userId chatId turnId : Nat)
deriving DecidableEq

def ActivityEvent.turnId : ActivityEvent → Nat
  | turnStarted _ _ turnId | turnEnded _ _ turnId => turnId

/-- What is to be heard of a statement on a turn. -/
def notice (turnId : Nat) (row : TurnRow) : TurnEffect → Option ActivityEvent
  | .created .. => some (.turnStarted row.userId row.chatId turnId)
  | .updated (.finalizeOnce ..) => some (.turnEnded row.userId row.chatId turnId)
  | .updated _ => none

/-- The table, and the `after_commit` listeners of each session. -/
structure Sessions (Session : Type) where
  table : TurnTable Session := .empty
  listeners : Session → List ActivityEvent := fun _ => []
  /-- Those of them whose transaction was rolled back. -/
  leftover : Session → List ActivityEvent := fun _ => []
  published : List ActivityEvent := []

inductive Action (Session : Type)
  | tryCreateStarting (session : Session) (payload : TurnCreate) (now : Nat)
  | finalizeOnce (session : Session) (turnId : Nat) (status : TurnStatus)
      (errorCode errorDetail : Option String) (now : Nat)
  /-- Any other statement on a turn. -/
  | statement (session : Session) (turnId : Nat) (update : TurnUpdate)
  | commit (session : Session)
  /-- Also what a failing commit comes to. -/
  | rollback (session : Session)

namespace Sessions

variable {Session : Type} [DecidableEq Session] (sessions : Sessions Session) (session : Session)

/-- `_publish_after_commit` -/
def publishAfterCommit (event : ActivityEvent) : Sessions Session :=
  { sessions with
    listeners := Function.update sessions.listeners session (sessions.listeners session ++ [event]) }

/-- The listeners stay. -/
def rolledBack (table : TurnTable Session) : Sessions Session :=
  { sessions with
    table := table
    leftover := Function.update sessions.leftover session (sessions.listeners session) }

def tryCreateStarting (payload : TurnCreate) (now : Nat) : Option (Sessions Session) :=
  match TurnService.tryCreateStarting session payload now sessions.table with
  | some (some row, table) => some ({ sessions with table := table }.publishAfterCommit session
      (.turnStarted row.userId row.chatId row.id))
  | some (none, table) => some (sessions.rolledBack session table)
  | none => none

def finalizeOnce (turnId : Nat) (status : TurnStatus) (errorCode errorDetail : Option String)
    (now : Nat) : Option (Sessions Session) :=
  match TurnService.finalizeOnce session turnId status errorCode errorDetail now sessions.table with
  | .ok (some (true, table)) =>
      -- `RETURNING chat_id, user_id`
      (table.view session turnId).map fun row => { sessions with table := table }.publishAfterCommit
        session (.turnEnded row.userId row.chatId turnId)
  | .ok (some (false, table)) => some { sessions with table := table }
  | .ok none => none
  | .error _ => some sessions

/-- `after_commit` fires each listener, once. -/
def commit : Sessions Session where
  table := sessions.table.commit session
  listeners := Function.update sessions.listeners session []
  leftover := Function.update sessions.leftover session []
  published := sessions.published ++ sessions.listeners session

end Sessions

def isFinalize : TurnUpdate → Bool
  | .finalizeOnce .. => true
  | _ => false

variable {Session : Type} [DecidableEq Session]

def step (sessions : Sessions Session) : Action Session → Option (Sessions Session)
  | .tryCreateStarting session payload now => sessions.tryCreateStarting session payload now
  | .finalizeOnce session turnId status errorCode errorDetail now =>
      sessions.finalizeOnce session turnId status errorCode errorDetail now
  | .statement session turnId update =>
      if isFinalize update then none
      else (turns.execUpdate sessions.table session turnId update).map fun (_, table) =>
        { sessions with table := table }
  | .commit session => some (sessions.commit session)
  | .rollback session => some (sessions.rolledBack session (sessions.table.rollback session))

end CodexServer.Activity
