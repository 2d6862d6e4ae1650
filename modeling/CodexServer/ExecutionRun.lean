import CodexServer.Runner
import CodexServer.StreamRun

/-!
# The runs of an execution

`execute_turn_inner` from the row on, over any stream of frames. Its runs are seen through the awaits
alone, as it yields nothing itself.
-/

open Async Program

namespace CodexServer

abbrev ExecMove := Move Op Op.Val Fault Empty

abbrev FrameStream := Program Op Op.Val Fault ChatEvent (Except Exn Unit)

section

variable (cfg : ExecConfig) (turn : TurnRow) (stream : FrameStream)

def runCodexTurnOver : ExecCode Unit := do
  await (.external .openCodex)
  Async.tryFinally
    (do
      let _ ← Async.forEach (forwardFrame cfg) stream
      pure ())
    (await (.external .closeCodex))

def withOutcomeOver : LockAcquireOutcome → ExecCode Unit
  | .acquired => do
      let leased ← Lease.acquire cfg.turnId cfg.holder
      if leased then do
        Async.modifyLocal fun locals => { locals with leaseHolder := some cfg.holder }
        await (.startHeartbeat cfg.turnId turn.chatId cfg.holder)
        Async.modifyLocal fun locals => { locals with heartbeatTask := true }
        runCodexTurnOver cfg stream
      else Async.modifyLocal fun locals => { locals with redeliverySkip := true }
  | outcome => withOutcome cfg turn outcome

def executeOver : ExecCode Unit :=
  Async.tryFinally
    (Async.tryCatch (Locks.holdTurnLocks turn.chatId cfg.turnId (withOutcomeOver cfg turn stream))
      (executionFailed cfg))
    (executionFinally cfg)

theorem executeLoaded_eq :
    executeLoaded cfg turn = executeOver cfg turn (Async.generator (streamTurn cfg turn) {}) := by
  have houtcome : withOutcome cfg turn =
      withOutcomeOver cfg turn (Async.generator (streamTurn cfg turn) {}) := by
    funext outcome
    cases outcome <;> rfl
  unfold executeLoaded executeOver
  rw [houtcome]

end

/-- The outcomes that a run asks `finalize_once` for. -/
def finals (moves : List ExecMove) : List TerminalStatus :=
  moves.filterMap fun
    | .did (.finalizeOnce _ status _ _) _ => some status
    | _ => none

@[simp]
theorem finals_append (moves later : List ExecMove) :
    finals (moves ++ later) = finals moves ++ finals later := by
  simp [finals]

end CodexServer
