import CodexServer.Ownership

/-!
# Those who finalise a turn from outside

Recovery finalises a turn whose heartbeat or lease has stopped, and a `run_turn` handler finalises
the active turn of its chat when it takes it for dead. All of them look first and write later, with
awaits in between.
-/

namespace CodexServer

abbrev ControlCode (α : Type) := Code Empty Unit α

/-- A piece of control code as a thread; what it returns goes to the RPC layer. -/
def ControlCode.thread {α : Type} (code : ControlCode α) : Thread :=
  (code ()).bind fun (outcome, _) => .ret (outcome.map fun _ => ())

/-! ### Recovery -/

namespace Recovery

/-- `_STALE_THRESHOLD` in seconds. -/
def staleThreshold : Nat := 120

/-- `_finalize_orphan` -/
def finalizeOrphan (turn : TurnRow) : ControlCode Unit := do
  let _ ← await (.finalizeOnce turn.id .failed (some "orphan_heartbeat")
    (some "no heartbeat for >120.0s"))
  let _ ← Locks.releaseActive turn.chatId turn.id
  pure ()

def finalizeOrphans : List TurnRow → ControlCode Unit
  | [] => pure ()
  | turn :: rest => do
      finalizeOrphan turn
      finalizeOrphans rest

/-- `reconcile_stale_turns` -/
def reconcileStaleTurns : ControlCode Nat := do
  let stale ← await (.findStaleActive staleThreshold)
  finalizeOrphans stale
  pure stale.length

/-- `reconcile_if_stale`: whether the turn was stale. -/
def reconcileIfStale (turn : TurnRow) : ControlCode Bool := do
  let now ← await .clock
  if now - turn.heartbeatAt < staleThreshold then pure false
  else do
    finalizeOrphan turn
    pure true

/-- A caller of `reconcile_if_stale`, from its read of the row on. -/
def reconcileRead (turnId : Nat) : ControlCode Bool := do
  let found ← await (.getTurn turnId)
  match found with
  | none => pure false
  | some turn => if turn.status.isActive then reconcileIfStale turn else pure false

/-- `_finalize_lease_expired` -/
def finalizeLeaseExpired (turnId : Nat) : ControlCode Unit := do
  let found ← await (.getTurn turnId)
  match found with
  | none => pure ()
  | some turn =>
      if turn.status.isActive then do
        let _ ← await (.finalizeOnce turn.id .failed (some "lease_expired")
          (some "worker lease expired without release"))
        let _ ← Locks.releaseActive turn.chatId turn.id
        pure ()
      else pure ()

/-- The listener on one message of the `expired` channel. -/
def leaseExpiredMessage (turnId : Nat) : ControlCode Unit :=
  exceptException (finalizeLeaseExpired turnId) fun _ => pure ()

end Recovery

/-! ### The `run_turn` handler -/

/-- `_PreparedRunTurn`, and what Codex will answer to a steer and to an interrupt. -/
structure PreparedRunTurn where
  chatId : Nat
  userId : Nat
  userMessageId : Nat
  sidecar : SidecarName
  hasUploads : Bool
  steerAccepted : Bool
  interrupted : Bool
  actualTurnId : String

namespace Handler

variable (prepared : PreparedRunTurn)

def isControlRpcError : Exn → Bool
  | .fault (.rpcError _) | .fault (.timeout _) => true
  | _ => false

/-- The interrupt of the turn that Codex runs instead. -/
def interruptStale (turn : TurnRow) : ControlCode Unit :=
  if turn.codexThreadId.isSome then
    Async.tryCatch (await (.external .sendInterrupt)) fun
      | .fault (.staleSidecarTurn _) => pure ()
      | error => if isControlRpcError error then pure () else Async.throw error
  else pure ()

/-- `_handle_stale_turn` -/
def handleStaleTurn (turn : TurnRow) : ControlCode Unit := do
  interruptStale turn
  quarantineThread (turn.codexThreadId.getD "")
  let _ ← await (.finalizeOnce turn.id .failed (some CodexErrorCode.staleActiveTurn)
    (some ("sidecar held " ++ prepared.actualTurnId)))
  pure ()

def staleActiveTurn : ChatEvent :=
  errorEvent CodexErrorCode.staleActiveTurn (some "previous Codex turn is stale; retry shortly")

/-- `send_steer_by_ids`: whether Codex takes the text into its turn. -/
def sendSteer (codexTurnId : String) : ControlCode Bool := do
  await (.external .sendSteer)
  if prepared.steerAccepted then do
    orOnRedisError (await (.noteSteer prepared.chatId codexTurnId)) ()
    pure true
  else pure false

/-- `_try_steer_active_turn` -/
def trySteerActiveTurn (active : TurnRow) (codexTurnId : String) :
    ControlCode (Option ChatEvent) := do
  match ← Async.attempt (sendSteer prepared codexTurnId) with
  | .error (.fault (.staleSidecarTurn _)) => do
      handleStaleTurn prepared active
      pure (some staleActiveTurn)
  | .error error => if isControlRpcError error then pure none else Async.throw error
  | .ok false => pure none
  | .ok true => do
      await (.external .appendSteered)
      orOnRedisError (await (.bumpSteer active.id)) ()
      pure (some ⟨.done prepared.chatId "" none true, ""⟩)

/-- `send_interrupt_turn_id`: nothing is sent without a thread. -/
def sendInterrupt (active : TurnRow) : ControlCode Bool := do
  if active.codexThreadId.isSome then do
    await (.external .sendInterrupt)
    pure prepared.interrupted
  else pure false

/-- `_try_interrupt_active_turn` -/
def tryInterruptActiveTurn (active : TurnRow) : ControlCode (Bool × Option ChatEvent) := do
  match ← Async.attempt (sendInterrupt prepared active) with
  | .error (.fault (.staleSidecarTurn _)) => do
      handleStaleTurn prepared active
      pure (false, some staleActiveTurn)
  | .error error => if isControlRpcError error then pure (false, none) else Async.throw error
  | .ok interrupted => pure (interrupted, none)

def turnBusy (detail : String) : ChatEvent := errorEvent CodexErrorCode.turnBusy (some detail)

/-- The active turn has its Codex ids and a lease: it is steered, or interrupted. -/
def handleRunningTurn (active : TurnRow) (codexTurnId : String) :
    ControlCode (Option ChatEvent) := do
  if prepared.hasUploads then pure (some (turnBusy "previous turn still finishing — retry shortly"))
  else
    match ← trySteerActiveTurn prepared active codexTurnId with
    | some event => pure (some event)
    | none => do
        let (interrupted, event) ← tryInterruptActiveTurn prepared active
        match event with
        | some event => pure (some event)
        | none =>
            if interrupted then pure none
            else pure (some (turnBusy "previous turn still finishing — retry shortly"))

/-- No lease: the worker is taken for dead. -/
def finalizeZombie (active : TurnRow) : ControlCode Unit := do
  let _ ← await (.finalizeOnce active.id .failed (some "lease_expired")
    (some "worker lease missing — runner dead"))
  let _ ← Locks.releaseActive active.chatId active.id
  pure ()

/-- The active turn has its Codex ids: without a lease it is finalised. -/
def handleMarkedTurn (active : TurnRow) (codexTurnId : String) :
    ControlCode (Option ChatEvent) := do
  let alive ← Lease.exists_ active.id
  if alive then handleRunningTurn prepared active codexTurnId
  else do
    finalizeZombie active
    pure none

/-- `_handle_active_turn`: no event when the chat is free for a new turn. -/
def handleActiveTurn : ControlCode (Option ChatEvent) := do
  let found ← await (.getActiveForChat prepared.chatId)
  match found with
  | none => pure none
  | some active => do
      let stale ← Recovery.reconcileIfStale active
      if stale then pure none
      else
        match active.codexTurnId with
        | none => pure (some (turnBusy "another turn is starting for this chat"))
        | some codexTurnId => handleMarkedTurn prepared active codexTurnId

/-- `_create_web_turn` -/
def createWebTurn : ControlCode (Except ChatEvent TurnRow) := do
  let created ← await (.createTurn
    ⟨prepared.chatId, prepared.userId, prepared.userMessageId, prepared.sidecar⟩)
  match created with
  | none => pure (.error (turnBusy "another turn is starting for this chat"))
  | some turn => pure (.ok turn)

/-- `_enqueue_turn` -/
def enqueueTurn (turn : TurnRow) : ControlCode (Option ChatEvent) := do
  let failed (text : String) : ControlCode (Option ChatEvent) := do
    let _ ← await (.finalizeOnce turn.id .failed (some "enqueue_failed") (some text))
    pure (some (errorEvent CodexErrorCode.codexError (some ("enqueue failed: " ++ text))))
  match ← Async.attempt (await (.enqueue turn.id)) with
  | .ok _ => pure none
  | .error (.fault (.queueError text)) | .error (.fault (.redisError text))
  | .error (.fault (.timeout text)) => failed text
  | .error error => Async.throw error

/-- `run_turn` up to the tail: the event it answers with, or none when the turn is enqueued. -/
def runTurn : ControlCode (Option ChatEvent) := do
  match ← handleActiveTurn prepared with
  | some event => pure (some event)
  | none =>
      match ← createWebTurn prepared with
      | .error event => pure (some event)
      | .ok turn => enqueueTurn turn

end Handler
end CodexServer
