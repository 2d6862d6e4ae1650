import CodexServer.StreamTurn

/-!
# `execute_turn_inner`

One execution of a turn in a worker: the lock, the lease and the heartbeat around the stream, and on
the way out the teardown and the one `finalize_once`. Between an await that has done something and
the variable that records it there may be a fault, so the variables are kept as the code keeps them.
-/

namespace CodexServer

/-- The variables of `execute_turn_inner` that its `except` and `finally` clauses look at. -/
structure ExecLocals where
  cancelled : Bool := false
  terminalStatus : Option TerminalStatus := none
  terminalError : Option String × Option String := (none, none)
  terminalPublished : Bool := false
  redeliverySkip : Bool := false
  heartbeatTask : Bool := false
  leaseHolder : Option Nat := none

abbrev ExecCode (α : Type) := Code Empty ExecLocals α

/-- `TurnStream.publish` -/
def publish (turnId : Nat) (event : ChatEvent) : ExecCode String := do
  let rawId ← await (.xadd turnId event)
  await (.expireStream turnId)
  pure rawId

/-- `_build_terminal_event` -/
def buildTerminalEvent (status : Option TerminalStatus) (error : Option String × Option String) :
    ChatEvent :=
  if status = some .completed then ⟨.done 0 "" none false, ""⟩
  else
    let code := (error.1.filter (· ≠ "")).getD CodexErrorCode.streamDropped
    let detail := (error.2.filter (· ≠ "")).getD "background turn ended without terminal event"
    errorEvent code (some detail)

/-- What the terminal frame of the stream says about the outcome of the turn. -/
def terminalOf : ChatEvent → Option (TerminalStatus × Option String × Option String)
  | ⟨.done .., _⟩ => some (.completed, none, none)
  | ⟨.error code detail, _⟩ =>
      some (.failed, some (if code = "" then "codex_error" else code), some (detail.getD ""))
  | _ => none

section

variable (cfg : ExecConfig)

/-- The body of the hot loop. -/
def forwardFrame (event : ChatEvent) : ExecCode (Option Unit) := do
  let lost ← await .ownershipLost
  if lost then do
    Async.modifyLocal fun locals =>
      { locals with
        terminalStatus := some .failed
        terminalError := (some "ownership_lost", some "heartbeat/lease CAS failed mid-stream") }
    pure (some ())
  else do
    let eventId ← publish cfg.turnId event
    await (.updateLastEvent cfg.turnId eventId)
    match terminalOf event with
    | some (status, code, detail) => do
        Async.modifyLocal fun locals =>
          { locals with
            terminalPublished := true
            terminalStatus := some status
            terminalError := if status = .failed then (code, detail) else locals.terminalError }
        pure none
    | none => pure none

/-- `async with open_codex_turn`, and the stream inside. -/
def runCodexTurn (turn : TurnRow) : ExecCode Unit := do
  await (.external .openCodex)
  Async.tryFinally
    (do
      let _ ← Async.forEach (forwardFrame cfg) (Async.generator (streamTurn cfg turn) {})
      pure ())
    (await (.external .closeCodex))

/-- What is done with the lock. -/
def withOutcome (turn : TurnRow) : LockAcquireOutcome → ExecCode Unit
  | .redelivery => Async.modifyLocal fun locals => { locals with redeliverySkip := true }
  | .activeBusy => Async.modifyLocal fun locals =>
      { locals with
        terminalStatus := some .failed
        terminalError := (some CodexErrorCode.turnBusy,
          some ("lock unavailable: " ++ LockAcquireOutcome.activeBusy.value)) }
  | .acquired => do
      let leased ← Lease.acquire cfg.turnId cfg.holder
      if leased then do
        Async.modifyLocal fun locals => { locals with leaseHolder := some cfg.holder }
        await (.startHeartbeat cfg.turnId turn.chatId cfg.holder)
        Async.modifyLocal fun locals => { locals with heartbeatTask := true }
        runCodexTurn cfg turn
      else Async.modifyLocal fun locals => { locals with redeliverySkip := true }

/-- The `except` clauses. -/
def executionFailed : Exn → ExecCode Unit
  | .fault .cancelled => do
      Async.modifyLocal fun locals =>
        { locals with cancelled := true, terminalStatus := some .cancelled }
      Async.throw (.fault .cancelled)
  | error => do
      let detail := "background crashed: " ++ error.text
      Async.modifyLocal fun locals =>
        { locals with
          terminalStatus := some .failed
          terminalError := (some "codex_error", some detail) }
      exceptException
        (do
          let _ ← publish cfg.turnId (errorEvent CodexErrorCode.codexError (some detail))
          Async.modifyLocal fun locals => { locals with terminalPublished := true })
        fun _ => pure ()

/-- The release of the lease, when it was taken. -/
def releaseHeld : Option Nat → ExecCode Unit
  | some holder => do
      let _ ← Lease.release cfg.turnId holder
      pure ()
  | none => pure ()

/-- The end of the heartbeat task, whatever it ends with, and of the lease. -/
def teardown : ExecCode Unit := do
  let locals ← Async.getLocal
  if locals.heartbeatTask then do
    let _ ← Async.attempt (await .stopHeartbeat)
    releaseHeld cfg locals.leaseHolder
  else pure ()

/-- The safety net: a terminal frame when none was published. -/
def publishSafetyTerminal : ExecCode Unit := do
  let locals ← Async.getLocal
  if locals.terminalPublished ∨ locals.cancelled ∨ locals.redeliverySkip then pure ()
  else do
    exceptException
      (do
        let _ ← publish cfg.turnId (buildTerminalEvent locals.terminalStatus locals.terminalError)
        pure ())
      fun _ => pure ()

def finalizeTurn : ExecCode Unit := do
  let locals ← Async.getLocal
  match locals.terminalStatus with
  | some status =>
      if locals.redeliverySkip then pure ()
      else do
        let _ ← await
          (.finalizeOnce cfg.turnId status locals.terminalError.1 locals.terminalError.2)
        pure ()
  | none => pure ()

/-- `release_turn` -/
def releaseTurn : ExecCode Unit := do
  await (.external .decrActive)
  if cfg.activeLeft ≤ 0 then await (.external .deleteActive) else pure ()

/-- The `finally` clause. -/
def executionFinally : ExecCode Unit := do
  teardown cfg
  publishSafetyTerminal cfg
  finalizeTurn cfg
  let locals ← Async.getLocal
  if locals.redeliverySkip then pure () else releaseTurn cfg

/-- From the row on: the locked part, its `except` clauses and its `finally`. -/
def executeLoaded (turn : TurnRow) : ExecCode Unit :=
  Async.tryFinally
    (Async.tryCatch (Locks.holdTurnLocks turn.chatId cfg.turnId (withOutcome cfg turn))
      (executionFailed cfg))
    (executionFinally cfg)

/-- `execute_turn_inner` -/
def executeTurnInner : ExecCode Unit := do
  let found ← await (.getTurn cfg.turnId)
  match found with
  | none => pure ()
  | some turn =>
      if turn.status.isTerminal then pure ()
      else do
        let user ← await (.getUser turn.userId)
        if user then executeLoaded cfg turn else pure ()

/-- An execution as a thread. -/
def executeTurn : Thread :=
  (executeTurnInner cfg {}).bind fun (outcome, _) => .ret outcome

end
end CodexServer
