import CodexServer.CodexTurn
import CodexServer.ExecutionRun
import CodexServer.Telegram
import CodexServer.Proof.Coalescing

/-!
# How a Codex turn ends

Codex ends a turn with a `turn/completed` notification or with the status that it answers an idle
probe with. On its way to the row of the turn this status goes through the events and exceptions of
`CodexTurnSession.run_turn` and then through one of the two surfaces.
-/

open Program (Move)

namespace CodexServer.Outcome

open CodexTurn

/-! ### What a turn hears -/

/-- What `probe_or_extend_idle` and the callback around it make of a probed status. -/
def probeAnswer (raw : Option String) : Action :=
  if raw = some "inProgress" then .answerIdle true true
  else
    match mapCodexTurnStatus raw with
    | none | some .running => .answerIdle false false
    | some mapped => .raise (.codexTurnTerminal mapped (raw.getD ""))

/-- A step of a turn that nobody cancels and whose callbacks fail in no way of their own: idle, it
hears a status from the probe, `none` when the probe fails or does not know the turn. -/
inductive Input
  | own (action : Action)
  | probe (raw : Option String)

/-- The answers of `on_idle` come from the probe alone. -/
def isCallback : Action → Bool
  | .answerIdle .. | .raise _ => true
  | _ => false

def hear (options : Options) (session : Session) : Input → Option Session
  | .own action => if isCallback action then none else step options session action
  | .probe raw =>
      if session.point = .idling then step options session (probeAnswer raw) else none

/-- How the client of a turn ends. -/
def endingOf : Exit → Except Exn Unit
  | .returned | .finished => .ok ()
  | .timeoutError => .error (.fault (.timeout ""))
  | .staleTurnStream => .error (.fault (.staleTurnStream ""))
  | .malformed _ => .error (.fault (.other ""))
  | .raised error => .error error

/-- The client of a turn that has ended. -/
def clientFor (session : Session) (exit : Exit) :
    Program Op Op.Val Fault CodexEvent (Except Exn Unit) :=
  Coalescing.clientOf (endingOf exit) session.events

/-! ### The status that Codex reports -/

def turnFields (note : Notification) : List (String × Json) :=
  ((note.params.lookup "turn").bind Json.object?).getD []

/-- `turn.status` of a `turn/completed` notification. -/
def notedStatus (note : Notification) : Option String :=
  ((turnFields note).lookup "status").bind Json.string?

/-- The notification has an error or the status of a failure. -/
def notesFailure (note : Notification) : Bool :=
  ((turnFields note).lookup "error").any Json.truthy || decide (notedStatus note = some "failed")

/-- The `turn/completed` notification that the turn has ended with, translated or not. -/
def closing? (session : Session) : Option Notification :=
  match session.exit? with
  | some .finished | some (.malformed _) =>
      session.yielded.getLast?.filter fun note => note.method = CodexNotif.turnCompleted
  | _ => none

/-- The status that Codex has ended the turn with, in a notification or in the answer to a probe. -/
def codexStatus (session : Session) : Option String :=
  match session.exit? with
  | some (.raised (.codexTurnTerminal _ raw)) => some raw
  | _ => (closing? session).bind notedStatus

/-- Both surfaces have the same outcome, and it is the one of the status that Codex has reported. -/
def Agree (session : Session) (web telegram : TerminalStatus) : Prop :=
  web = telegram ∧
    ∀ status, mapCodexTurnStatus (codexStatus session) = some status → web.1 = status

/-- What the surfaces make of the end that a notification reports. -/
def notedOutcome (exit : Exit) (note : Notification) : TurnStatus :=
  match exit with
  | .malformed _ => .failed
  | _ => if notesFailure note then .failed else .completed

/-- Codex reports no interruption; and a status that goes with an error, or with a notification that
cannot be translated, is a failure, and one that goes with none is no `inProgress`. -/
def faithful (session : Session) : Bool :=
  match session.exit? with
  | some (.raised (.codexTurnTerminal _ raw)) => decide (raw ≠ "interrupted")
  | some exit =>
      (closing? session).all fun note =>
        (mapCodexTurnStatus (notedStatus note)).all fun status => status = notedOutcome exit note
  | none => true

/-! ### Runs in which nothing fails on our side -/

/-- The await does not fail; the turn gets its lock and its lease and keeps them. -/
def calm (store : MessageDraft → AssistantMessage) : ExecMove → Bool
  | .did (.setActiveNx ..) (.ok acquired) | .did (.setLeaseNx ..) (.ok acquired) => acquired
  | .did .ownershipLost (.ok lost) => !lost
  | .did op answer => Coalescing.smooth store (.did op answer)
  | .yielded _ => true

/-! ### The outcomes of the surfaces -/

/-- The outcome of a turn with these events, where `last` is the outcome without a last event. -/
def statusOf (last : TerminalStatus) : List CodexEvent → TerminalStatus
  | .done _ :: _ => .completed
  | .error _ _ :: _ => .failed
  | _ :: rest => statusOf last rest
  | [] => last

/-- The outcome on the web. -/
def webStatus (ending : Except Exn Unit) : List CodexEvent → TerminalStatus :=
  statusOf <|
    match ending with
    | .error (.codexTurnTerminal .completed _) => .completed
    | _ => .failed

/-- The outcome on Telegram. -/
def telegramStatus (ending : Except Exn Unit) : List CodexEvent → TerminalStatus :=
  statusOf <|
    match ending with
    | .error (.codexTurnTerminal status _) => status.terminal?.getD .failed
    | _ => .failed

end CodexServer.Outcome
