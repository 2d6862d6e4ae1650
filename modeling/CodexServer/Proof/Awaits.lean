import CodexServer.ExecutionRun

/-!
# What the parts of an execution await

The Codex client, `stream_turn` over it and the hot loop over that each await operations of their own
kind, and none of those that take or give back the turn.
-/

open Async

namespace CodexServer

/-- What the Codex client awaits. -/
def isClientOp : Op → Bool
  | .external (.startTurn _) | .external .probe | .external .interrupt | .markRunning ..
  | .consumeSteer .. | .nextNote _ => true
  | _ => false

/-- What `stream_turn` awaits, with its client. -/
def isStreamOp : Op → Bool
  | .external .publishBus | .external .quarantine | .peekSteer _ | .persistPartial ..
  | .persistFinal .. | .refresh | .emitEvent .. => true
  | op => isClientOp op

/-- What the hot loop awaits, with its stream. -/
def isLoopOp : Op → Bool
  | .ownershipLost | .xadd .. | .expireStream _ | .updateLastEvent .. => true
  | op => isStreamOp op

theorem isStreamOp_of_client {op : Op} (hop : isClientOp op = true) : isStreamOp op = true := by
  unfold isStreamOp
  split
  all_goals first | rfl | exact hop

theorem isLoopOp_of_stream {op : Op} (hop : isStreamOp op = true) : isLoopOp op = true := by
  unfold isLoopOp
  split
  all_goals first | rfl | exact hop

/-! ### Calls -/

section

variable {Out Local α : Type} {Allowed : Op → Prop}

theorem awaits_op {op : Op} (hop : Allowed op) :
    Awaits Allowed (await op : Code Out Local op.Val) := awaits_await Exn.fault hop

theorem awaits_orOnRedisError {code : Code Out Local α} (h : Awaits Allowed code) (default : α) :
    Awaits Allowed (orOnRedisError code default) := by
  refine h.tryCatch fun error => ?_
  split
  · exact awaits_pure default
  · exact awaits_throw _

theorem awaits_exceptException {code : Code Out Local α} (h : Awaits Allowed code)
    {handler : Exn → Code Out Local α} (hhandler : ∀ error, Awaits Allowed (handler error)) :
    Awaits Allowed (exceptException code handler) := by
  refine h.tryCatch fun error => ?_
  split
  · exact awaits_throw _
  · exact hhandler error

theorem awaits_interruptBestEffort (hop : Allowed (.external .interrupt))
    (threadId codexTurnId : String) :
    Awaits Allowed (interruptBestEffort threadId codexTurnId : Code Out Local Unit) :=
  (awaits_pure ()).ite (awaits_exceptException (awaits_op hop) fun _ => awaits_pure ())

theorem awaits_quarantineThread (hop : Allowed (.external .quarantine)) (threadId : String) :
    Awaits Allowed (quarantineThread threadId : Code Out Local Unit) :=
  (awaits_pure ()).ite (awaits_orOnRedisError (awaits_op hop) ())

end

/-! ### The client -/

abbrev OfClient {α : Type} (code : ClientCode α) : Prop := Awaits (isClientOp · = true) code

theorem await_ofClient {op : Op} (hop : isClientOp op = true) : OfClient (await op) := awaits_op hop

theorem interruptBestEffort_ofClient (threadId codexTurnId : String) :
    OfClient (interruptBestEffort threadId codexTurnId) :=
  awaits_interruptBestEffort (by rfl) threadId codexTurnId

theorem idleVerdict_ofClient (raw : Option String) : OfClient (idleVerdict raw) := by
  refine (awaits_pure true).ite ?_
  split
  · exact awaits_pure false
  · exact awaits_pure false
  · exact awaits_throw _

theorem probeOrExtendIdle_ofClient (threadId codexTurnId : String) (probed : Option String) :
    OfClient (probeOrExtendIdle threadId codexTurnId probed) := by
  refine (awaits_pure false).ite ?_
  have hprobe : OfClient (do
      await (.external .probe)
      pure probed) := (await_ofClient rfl).bind fun _ => awaits_pure probed
  exact (awaits_exceptException hprobe fun _ => awaits_pure none).bind idleVerdict_ofClient

theorem handleIdle_ofClient (chatId : Nat) (threadId codexTurnId : String)
    (probed : Option String) : OfClient (handleIdle chatId threadId codexTurnId probed) := by
  have hsilence : OfClient (handleSilence threadId codexTurnId probed) := by
    refine (probeOrExtendIdle_ofClient threadId codexTurnId probed).bind fun extended => ?_
    refine (awaits_pure true).ite ?_
    exact (interruptBestEffort_ofClient threadId codexTurnId).bind fun _ => awaits_pure false
  exact (awaits_orOnRedisError (await_ofClient rfl) _).bind fun consumed =>
    (awaits_pure true).ite hsilence

theorem currentTurnNotifications_ofClient (chatId : Nat) (threadId codexTurnId : String)
    (notes : List CodexNote) :
    OfClient (currentTurnNotifications chatId threadId codexTurnId notes) := by
  induction notes with
  | nil => exact awaits_pure ()
  | cons note rest ih =>
      cases note with
      | event event =>
          refine (await_ofClient rfl).bind fun _ => (awaits_emit event).bind fun _ => ?_
          cases event with
          | done | error => exact awaits_pure ()
          | token | toolCall | toolResult => exact ih
      | idle probed =>
          refine (await_ofClient rfl).bind fun _ => ?_
          refine (handleIdle_ofClient chatId threadId codexTurnId probed).bind fun extended => ?_
          exact ih.ite (awaits_throw _)

section

variable {cfg : ExecConfig} {turn : TurnRow}

/-- **The client's operations.** -/
theorem runTurn_only (chatId : Nat) :
    (Async.generator (runTurn cfg chatId) ()).Only (isClientOp · = true) := by
  have hclient : OfClient (runTurn cfg chatId) := by
    refine (await_ofClient rfl).bind fun _ => ?_
    cases cfg.script.start with
    | error detail => exact awaits_emit _
    | ok ids =>
        have hmark : OfClient (markStarted cfg.turnId ids.1 ids.2) :=
          (await_ofClient rfl).bind fun _ => awaits_pure ()
        exact hmark.bind fun _ =>
          currentTurnNotifications_ofClient chatId ids.1 ids.2 cfg.script.notes
  exact hclient.generator ()

/-! ### The stream -/

abbrev OfStream {α : Type} (code : StreamCode α) : Prop := Awaits (isStreamOp · = true) code

theorem await_ofStream {op : Op} (hop : isStreamOp op = true) : OfStream (await op) := awaits_op hop

theorem interruptBestEffort_ofStream (threadId codexTurnId : String) :
    OfStream (interruptBestEffort threadId codexTurnId) :=
  awaits_interruptBestEffort (by rfl) threadId codexTurnId

theorem quarantineThread_ofStream (threadId : String) : OfStream (quarantineThread threadId) :=
  awaits_quarantineThread (by rfl) threadId

theorem emitEvent_ofStream (kind : EventKind) : OfStream (emitEvent cfg turn kind) :=
  await_ofStream rfl

theorem emitBoth_ofStream (frame : ChatEvent) (kind : EventKind) :
    OfStream (do Async.emit frame; emitEvent cfg turn kind) :=
  (awaits_emit frame).bind fun _ => emitEvent_ofStream kind

theorem persistPartialSegment_ofStream (emitJournal : Bool) :
    OfStream (persistPartialSegment cfg turn emitJournal) :=
  awaits_getLocal.bind fun _ =>
    ((await_ofStream rfl).bind fun _ => (await_ofStream rfl).bind fun _ => awaits_pure _).bind
      fun _ => awaits_modifyLocal _

theorem persistVisiblePartial_ofStream : OfStream (persistVisiblePartial cfg turn) :=
  awaits_getLocal.bind fun _ => (awaits_pure ()).ite (persistPartialSegment_ofStream true)

theorem finalizeTurnPersist_ofStream : OfStream (finalizeTurnPersist cfg turn) :=
  awaits_getLocal.bind fun _ => (await_ofStream rfl).bind fun _ => (await_ofStream rfl).bind fun _ =>
    (awaits_modifyLocal _).bind fun _ => awaits_pure _

theorem checkSteerBoundary_ofStream : OfStream (checkSteerBoundary cfg turn) := by
  refine (awaits_orOnRedisError (await_ofStream rfl) _).bind fun count => ?_
  refine awaits_getLocal.bind fun state => (awaits_pure ()).ite ?_
  refine (awaits_modifyLocal _).bind fun _ => awaits_getLocal.bind fun _ => ?_
  exact (awaits_pure ()).ite (persistPartialSegment_ofStream false)

theorem flushTokenBuffer_ofStream : OfStream flushTokenBuffer :=
  awaits_getLocal.bind fun _ => (awaits_pure ()).ite
    ((awaits_modifyLocal _).bind fun _ => awaits_emit _)

theorem forwardEvent_ofStream (event : CodexEvent) : OfStream (forwardEvent cfg turn event) :=
  flushTokenBuffer_ofStream.bind fun _ => (awaits_emit _).bind fun _ =>
    checkSteerBoundary_ofStream.bind fun _ => awaits_pure none

theorem streamEvent_ofStream (event : CodexEvent) : OfStream (streamEvent cfg turn event) := by
  refine (awaits_orOnRedisError (await_ofStream rfl) _).bind fun _ => ?_
  refine (awaits_modifyLocal _).bind fun _ => ?_
  cases event with
  | token delta =>
      refine Awaits.ite ?_ (forwardEvent_ofStream _)
      refine (awaits_modifyLocal _).bind fun _ => awaits_getLocal.bind fun _ => ?_
      refine Awaits.ite ?_ (awaits_pure none)
      exact flushTokenBuffer_ofStream.bind fun _ => checkSteerBoundary_ofStream.bind fun _ =>
        awaits_pure none
  | toolCall record => exact forwardEvent_ofStream _
  | toolResult name text attachments error => exact forwardEvent_ofStream _
  | error code detail =>
      exact flushTokenBuffer_ofStream.bind fun _ => (awaits_emit _).bind fun _ =>
        (emitEvent_ofStream _).bind fun _ => awaits_pure _
  | done finalText =>
      exact flushTokenBuffer_ofStream.bind fun _ => checkSteerBoundary_ofStream.bind fun _ =>
        awaits_pure _

theorem streamDone_ofStream : OfStream (streamDone cfg turn) :=
  awaits_getLocal.bind fun _ =>
    (finalizeTurnPersist_ofStream.bind fun _ => awaits_emit _).ite (emitBoth_ofStream _ _)

theorem streamFailed_ofStream (error : Exn) : OfStream (streamFailed cfg turn error) := by
  have hlast (frame : ChatEvent) (kind : EventKind) : OfStream (do
      persistVisiblePartial cfg turn
      Async.emit frame
      emitEvent cfg turn kind) :=
    persistVisiblePartial_ofStream.bind fun _ => emitBoth_ofStream frame kind
  cases error with
  | codexTurnTerminal status raw =>
      refine Awaits.bind (awaits_getLocal.bind fun _ => Awaits.ite ?_ ?_) fun _ => awaits_emit _
      · exact (finalizeTurnPersist_ofStream.bind fun _ => awaits_pure _).ite (awaits_pure _)
      · exact persistVisiblePartial_ofStream.bind fun _ => awaits_pure _
  | fault fault =>
      cases fault with
      | cancelled =>
          exact (interruptBestEffort_ofStream _ _).bind fun _ =>
            persistVisiblePartial_ofStream.bind fun _ =>
              (emitEvent_ofStream _).bind fun _ => awaits_throw _
      | staleTurnStream text =>
          exact (interruptBestEffort_ofStream _ _).bind fun _ =>
            (quarantineThread_ofStream _).bind fun _ => hlast _ _
      | timeout text =>
          exact (interruptBestEffort_ofStream _ _).bind fun _ =>
            (quarantineThread_ofStream _).bind fun _ => hlast _ _
      | redisError | rpcError | staleSidecarTurn | queueError | other =>
          exact emitBoth_ofStream _ _

/-- The stream over any client that keeps to these operations. -/
theorem streamFrom_ofStream {client : Program Op Op.Val Fault CodexEvent (Except Exn Unit)}
    (hclient : client.Only (isStreamOp · = true)) : OfStream (streamFrom cfg turn client) := by
  refine (Awaits.forEach streamEvent_ofStream hclient).attempt.bind fun outcome => ?_
  match outcome with
  | .error error => exact streamFailed_ofStream error
  | .ok (some .failed) => exact awaits_pure ()
  | .ok (some .done) | .ok none => exact streamDone_ofStream

/-- **The stream's operations.** -/
theorem streamTurn_only :
    (Async.generator (streamTurn cfg turn) {}).Only (isStreamOp · = true) := by
  have hclient : (Async.generator (runTurn cfg turn.chatId) ()).Only (isStreamOp · = true) :=
    (runTurn_only turn.chatId).mono fun _ => isStreamOp_of_client
  rw [streamTurn_eq]
  exact (streamFrom_ofStream hclient).generator {}

/-! ### The hot loop -/

abbrev OfLoop {α : Type} (code : ExecCode α) : Prop := Awaits (isLoopOp · = true) code

theorem await_ofLoop {op : Op} (hop : isLoopOp op = true) : OfLoop (await op) := awaits_op hop

theorem forwardFrame_ofLoop (frame : ChatEvent) :
    OfLoop (forwardFrame cfg frame) := by
  refine (await_ofLoop rfl).bind fun lost => Awaits.ite ?_ ?_
  · exact (awaits_modifyLocal _).bind fun _ => awaits_pure _
  have hpublish : OfLoop (publish cfg.turnId frame) :=
    (await_ofLoop rfl).bind fun _ => (await_ofLoop rfl).bind fun _ => awaits_pure _
  refine hpublish.bind fun _ => (await_ofLoop rfl).bind fun _ => ?_
  split
  · exact (awaits_modifyLocal _).bind fun _ => awaits_pure _
  · exact awaits_pure _

theorem hotLoop_awaits {stream : Program Op Op.Val Fault ChatEvent (Except Exn Unit)}
    (hstream : stream.Only (isStreamOp · = true)) :
    OfLoop (Async.forEach (forwardFrame cfg) stream) :=
  Awaits.forEach forwardFrame_ofLoop (hstream.mono fun _ => isLoopOp_of_stream)

end
end CodexServer
