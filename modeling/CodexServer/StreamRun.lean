import CodexServer.Library.ProgramRun
import CodexServer.StreamTurn

/-!
# The runs of `stream_turn`

A run of `stream_turn` has two parts: the loop over the events of the client, and the way out that
depends on how the loop was left.
-/

open Async Program

namespace CodexServer

abbrev StreamMove := Move Op Op.Val Fault ChatEvent

section

variable (cfg : ExecConfig) (turn : TurnRow)

/-- The loop over the events that a client yields. -/
def streamLoop (client : Program Op Op.Val Fault CodexEvent (Except Exn Unit)) :
    StreamCode (Option LoopExit) :=
  Async.forEach (streamEvent cfg turn) client

/-- What is done once the loop is left. -/
def streamExit : Except Exn (Option LoopExit) → StreamCode Unit
  | .error error => streamFailed cfg turn error
  | .ok (some .failed) => pure ()
  | .ok (some .done) | .ok none => streamDone cfg turn

/-- `stream_turn` over any client. -/
def streamFrom (client : Program Op Op.Val Fault CodexEvent (Except Exn Unit)) : StreamCode Unit := do
  let outcome ← Async.attempt (streamLoop cfg turn client)
  streamExit cfg turn outcome

theorem streamTurn_eq :
    streamTurn cfg turn = streamFrom cfg turn (Async.generator (runTurn cfg turn.chatId) ()) := by
  refine congrArg (Bind.bind _) (funext fun outcome => ?_)
  match outcome with
  | .error error => rfl
  | .ok (some .failed) => rfl
  | .ok (some .done) | .ok none => rfl

/-- A run of `stream_turn`. -/
structure StreamRun where
  streamed : List StreamMove
  outcome : Except Exn (Option LoopExit)
  state : StreamState
  leaving : List StreamMove
  result : Except Exn Unit
  final : StreamState
  loop : Runs (streamLoop cfg turn (Async.generator (runTurn cfg turn.chatId) ()) {}) streamed
    (outcome, state)
  exit : Runs (streamExit cfg turn outcome state) leaving (result, final)

/-- The run in which each await is answered as `answer` says. -/
def StreamRun.ofAnswers (answer : (op : Op) → Except Fault op.Val) : StreamRun cfg turn :=
  let loop := streamLoop cfg turn (Async.generator (runTurn cfg turn.chatId) ()) {}
  let exit := streamExit cfg turn (loop.exec answer).2.1 (loop.exec answer).2.2
  { streamed := (loop.exec answer).1
    outcome := (loop.exec answer).2.1
    state := (loop.exec answer).2.2
    leaving := (exit.exec answer).1
    result := (exit.exec answer).2.1
    final := (exit.exec answer).2.2
    loop := runs_exec answer loop
    exit := runs_exec answer exit }

end

section

variable {cfg : ExecConfig} {turn : TurnRow}

def StreamRun.moves (run : StreamRun cfg turn) : List StreamMove := run.streamed ++ run.leaving

/-- These are all the runs of `stream_turn`. -/
theorem streamTurn_runs {moves : List StreamMove} {result : Except Exn Unit} {final : StreamState} :
    Runs (streamTurn cfg turn {}) moves (result, final) ↔
      ∃ run : StreamRun cfg turn, run.moves = moves ∧ run.result = result ∧ run.final = final := by
  rw [streamTurn_eq]
  unfold streamFrom
  rw [runs_attempt_bind]
  constructor
  · rintro ⟨streamed, outcome, state, leaving, hloop, hexit, rfl⟩
    exact ⟨⟨streamed, outcome, state, leaving, result, final, hloop, hexit⟩, rfl, rfl, rfl⟩
  · rintro ⟨run, rfl, rfl, rfl⟩
    exact ⟨_, _, _, _, run.loop, run.exit, rfl⟩

end

/-! ### A turn that goes well -/

/-- The row that `finalize` stores of a draft. -/
def storedMessage (draft : MessageDraft) : AssistantMessage :=
  ⟨7, draft.chatId, draft.text, draft.isPartial, draft.calls, draft.uploads, draft.clientId⟩

/-- Every await of a turn is answered as it should be. -/
def wellAnswered : (op : Op) → Except Fault op.Val
  | .setActiveNx .. | .delActiveIfEq .. | .setLeaseNx .. | .releaseLease .. | .markRunning ..
  | .finalizeOnce .. => .ok true
  | .ownershipLost => .ok false
  | .getActiveForChat _ => .ok none
  | .peekSteer _ => .ok 0
  | .persistPartial .. => .ok 1
  | .persistFinal _ draft _ => .ok (storedMessage draft)
  | .xadd .. => .ok "1-1"
  | .nextNote _ | .external _ | .refresh | .emitEvent .. | .expireStream _ | .updateLastEvent ..
  | .startHeartbeat .. | .stopHeartbeat | .addActiveLease .. | .discardActiveLease .. => .ok ()
  | _ => .error (.other "")

end CodexServer
