import CodexServer.Ownership

/-!
# `stream_turn`

The notifications of a Codex turn become frames for the client, and along the way the assistant
message and its partial snapshots are persisted. Both layers are generators: `runTurn` yields Codex
events, and the loop of `streamTurn` over it yields frames.
-/

namespace CodexServer

/-- The arguments of an execution that the code below looks at, the process it runs in, and what
Codex and the rate limit will answer. -/
structure ExecConfig where
  turnId : Nat
  holder : Nat
  clientId : Option String
  coalesceBytes : Nat
  idleTimeout : Nat
  /-- What DECR will leave in the active counter of the user. -/
  activeLeft : Int
  script : CodexScript

/-- `_StreamState` and the token buffer. -/
structure StreamState where
  collector : StreamCollector := {}
  segmentBufferOffset : Nat := 0
  segmentToolCount : Nat := 0
  seenSteerCount : Nat := 0
  partialMsgIds : List Nat := []
  pendingText : List String := []
  pendingSize : Nat := 0

namespace StreamState

def cutSegment (state : StreamState) : StreamState :=
  { state with
    segmentBufferOffset := state.collector.buffer.toList.length
    segmentToolCount := state.collector.toolCalls.length }

/-- The text and the calls since the last cut. -/
def segmentDelta (state : StreamState) : String × List ToolCallRecord :=
  (String.ofList (state.collector.buffer.toList.drop state.segmentBufferOffset),
    state.collector.toolCalls.drop state.segmentToolCount)

end StreamState

/-- Code inside `stream_turn`: it yields frames. -/
abbrev StreamCode (α : Type) := Code ChatEvent StreamState α

/-- Code inside the Codex client: it yields events. -/
abbrev ClientCode (α : Type) := Code CodexEvent Unit α

/-! ### The Codex client -/

/-- `interrupt_best_effort`: nothing without the ids, and no `Exception` comes out of it. -/
def interruptBestEffort {Out Local : Type} (threadId codexTurnId : String) : Code Out Local Unit :=
  if threadId = "" ∨ codexTurnId = "" then pure ()
  else exceptException (await (.external .interrupt)) fun _ => pure ()

/-- `_mark_started`. Whether the row was marked is not looked at. -/
def markStarted (turnId : Nat) (threadId codexTurnId : String) : ClientCode Unit := do
  let _ ← await (.markRunning turnId threadId codexTurnId)
  pure ()

/-- `map_codex_turn_status` -/
def mapCodexTurnStatus : Option String → Option TurnStatus
  | some "inProgress" => some .running
  | some "completed" => some .completed
  | some "interrupted" => some .cancelled
  | some "failed" => some .failed
  | _ => none

/-- What a probed status means for the deadline; a terminal one is raised. -/
def idleVerdict (raw : Option String) : ClientCode Bool :=
  if raw = some "inProgress" then pure true
  else
    match mapCodexTurnStatus raw with
    | none | some .running => pure false
    | some mapped => Async.throw (.codexTurnTerminal mapped (raw.getD ""))

/-- `probe_or_extend_idle` -/
def probeOrExtendIdle (threadId codexTurnId : String) (probed : Option String) :
    ClientCode Bool := do
  if threadId = "" ∨ codexTurnId = "" then pure false
  else
    let raw ← exceptException (do await (.external .probe); pure probed) fun _ => pure none
    idleVerdict raw

/-- The idle deadline without a steer: the probe decides, else the turn is interrupted. -/
def handleSilence (threadId codexTurnId : String) (probed : Option String) : ClientCode Bool := do
  let extended ← probeOrExtendIdle threadId codexTurnId probed
  if extended then pure true
  else do
    interruptBestEffort threadId codexTurnId
    pure false

/-- `_handle_idle`: whether the deadline is extended. -/
def handleIdle (chatId : Nat) (threadId codexTurnId : String) (probed : Option String) :
    ClientCode Bool := do
  let consumed ← orOnRedisError (await (.consumeSteer chatId codexTurnId)) false
  if consumed then pure true else handleSilence threadId codexTurnId probed

/-- The loop over the notifications of the turn. -/
def currentTurnNotifications (chatId : Nat) (threadId codexTurnId : String) :
    List CodexNote → ClientCode Unit
  | [] => pure ()
  | .event event :: rest => do
      await (.nextNote (.event event))
      Async.emit event
      match event with
      | .done _ | .error _ _ => pure ()
      | _ => currentTurnNotifications chatId threadId codexTurnId rest
  | .idle probed :: rest => do
      await (.nextNote (.idle probed))
      let extended ← handleIdle chatId threadId codexTurnId probed
      if extended then currentTurnNotifications chatId threadId codexTurnId rest
      else Async.throw (.fault (.timeout ""))

/-- `run_turn`: start the turn, report its ids, and follow its notifications. -/
def runTurn (cfg : ExecConfig) (chatId : Nat) : ClientCode Unit := do
  await (.external (.startTurn cfg.script.start))
  match cfg.script.start with
  | .error detail => Async.emit (.error CodexErrorCode.codexError (some detail))
  | .ok (threadId, codexTurnId) => do
      markStarted cfg.turnId threadId codexTurnId
      currentTurnNotifications chatId threadId codexTurnId cfg.script.notes

/-! ### Persistence -/

section

variable (cfg : ExecConfig) (turn : TurnRow)

/-- `_persist_assistant_turn` of a partial message: the transaction, then the refresh. -/
def persistAssistantTurn (text : String) (calls : List ToolCallRecord) (emitJournal : Bool) :
    StreamCode Nat := do
  let id ← await (.persistPartial cfg.turnId ⟨turn.chatId, text, true, calls, [], none⟩ emitJournal)
  await .refresh
  pure id

def persistPartialSegment (emitJournal : Bool) : StreamCode Unit := do
  let state ← Async.getLocal
  let id ← persistAssistantTurn cfg turn state.segmentDelta.1 state.segmentDelta.2 emitJournal
  Async.modifyLocal fun state =>
    { state with partialMsgIds := state.partialMsgIds ++ [id] }.cutSegment

/-- `_persist_segment`: nothing without text. -/
def persistSegment : StreamCode Unit := do
  let state ← Async.getLocal
  if state.segmentDelta.1 = "" then pure ()
  else persistPartialSegment cfg turn false

/-- `_persist_visible_partial`: nothing without text or calls. -/
def persistVisiblePartial : StreamCode Unit := do
  let state ← Async.getLocal
  if state.segmentDelta.1 = "" ∧ state.segmentDelta.2 = [] then pure ()
  else persistPartialSegment cfg turn true

/-- `_finalize_turn_persist` with the text, calls, attachments and partial rows of the state. -/
def finalizeTurnPersist : StreamCode AssistantMessage := do
  let state ← Async.getLocal
  let collector := state.collector
  let message ← await (.persistFinal cfg.turnId ⟨turn.chatId, collector.fullText, false,
    collector.toolCalls, collector.attachments, cfg.clientId⟩ state.partialMsgIds)
  await .refresh
  Async.modifyLocal fun state => { state with partialMsgIds := [] }
  pure message

def emitEvent (kind : EventKind) : StreamCode Unit :=
  await (.emitEvent cfg.turnId turn.chatId kind)

/-! ### The loop -/

/-- A count of steers above the last one seen ends a segment. -/
def noteSteerCount (current : Nat) : StreamCode Unit := do
  let state ← Async.getLocal
  if current ≤ state.seenSteerCount then pure ()
  else do
    Async.modifyLocal fun state => { state with seenSteerCount := current }
    persistSegment cfg turn

/-- `_check_steer_boundary` -/
def checkSteerBoundary : StreamCode Unit := do
  let current ← orOnRedisError (await (.peekSteer cfg.turnId)) 0
  noteSteerCount cfg turn current

/-- `_flush_token_buffer`, and the frame when there is one. -/
def flushTokenBuffer : StreamCode Unit := do
  let state ← Async.getLocal
  if state.pendingText = [] then pure ()
  else do
    Async.modifyLocal fun state => { state with pendingText := [], pendingSize := 0 }
    Async.emit ⟨.token (String.join state.pendingText), ""⟩

/-- How the loop over the events is left. -/
inductive LoopExit
  | done
  | failed
deriving DecidableEq

/-- The frame of an event that is not coalesced, and the boundary check after it. -/
def forwardEvent (event : CodexEvent) : StreamCode (Option LoopExit) := do
  flushTokenBuffer
  Async.emit (chatEventToPb event)
  checkSteerBoundary cfg turn
  pure none

/-- A token that is coalesced with its neighbours. -/
def coalesceToken (delta : String) : StreamCode (Option LoopExit) := do
  Async.modifyLocal fun state =>
    { state with
      pendingText := state.pendingText ++ [delta]
      pendingSize := state.pendingSize + delta.utf8ByteSize }
  let state ← Async.getLocal
  if cfg.coalesceBytes ≤ state.pendingSize then do
    flushTokenBuffer
    checkSteerBoundary cfg turn
    pure none
  else pure none

/-- What is done with an event once the collector has it. -/
def handleEvent (event : CodexEvent) : StreamCode (Option LoopExit) :=
  match event with
  | .error _ _ => do
      flushTokenBuffer
      Async.emit (chatEventToPb event)
      emitEvent cfg turn .turnFailed
      pure (some .failed)
  | .done _ => do
      flushTokenBuffer
      checkSteerBoundary cfg turn
      pure (some .done)
  | .token delta =>
      if 0 < cfg.coalesceBytes then coalesceToken cfg turn delta else forwardEvent cfg turn event
  | .toolCall _ | .toolResult .. => forwardEvent cfg turn event

/-- The body of the loop. -/
def streamEvent (event : CodexEvent) : StreamCode (Option LoopExit) := do
  orOnRedisError (await (.external .publishBus)) ()
  Async.modifyLocal fun state => { state with collector := state.collector.absorb event }
  handleEvent cfg turn event

/-! ### The exits -/

/-- The ids of the running Codex turn, empty before they are known. -/
def currentIds : String × String :=
  match cfg.script.start with
  | .ok ids => ids
  | .error _ => ("", "")

/-- `_event_from_probe_terminal` -/
def eventFromProbeTerminal (status : TurnStatus) (raw : String) : StreamCode ChatEvent := do
  let state ← Async.getLocal
  let collector := state.collector
  if status = .completed then
    let text := finalTextForDoneFrame collector.fullText collector.buffer
    if collector.hasContent then do
      let message ← finalizeTurnPersist cfg turn
      pure ⟨.done turn.chatId text (some message) false, ""⟩
    else pure ⟨.done turn.chatId text none false, ""⟩
  else do
    persistVisiblePartial cfg turn
    pure (errorEvent ("codex_reported_" ++ raw) (some raw))

/-- The `except` clauses around the loop. All of them end the generator. -/
def streamFailed : Exn → StreamCode Unit
  | .codexTurnTerminal status raw => do
      let event ← eventFromProbeTerminal cfg turn status raw
      Async.emit event
  | .fault (.staleTurnStream _) => do
      interruptBestEffort (currentIds cfg).1 (currentIds cfg).2
      quarantineThread (currentIds cfg).1
      persistVisiblePartial cfg turn
      Async.emit (errorEvent CodexErrorCode.turnTimeout (some "stale-turn-notifications"))
      emitEvent cfg turn .threadReset
  | .fault (.timeout _) => do
      interruptBestEffort (currentIds cfg).1 (currentIds cfg).2
      quarantineThread (currentIds cfg).1
      persistVisiblePartial cfg turn
      Async.emit (errorEvent CodexErrorCode.turnTimeout
        (some ("idle>" ++ toString cfg.idleTimeout ++ ".0s")))
      emitEvent cfg turn .turnFailed
  | .fault .cancelled => do
      interruptBestEffort (currentIds cfg).1 (currentIds cfg).2
      persistVisiblePartial cfg turn
      emitEvent cfg turn .turnInterrupted
      Async.throw (.fault .cancelled)
  | error => do
      Async.emit (errorEvent CodexErrorCode.codexError (some error.text))
      emitEvent cfg turn .turnFailed

/-- After the loop: the final persist and the done frame, unless Codex never said done. -/
def streamDone : StreamCode Unit := do
  let state ← Async.getLocal
  let collector := state.collector
  if collector.doneSeen then do
    let message ← finalizeTurnPersist cfg turn
    Async.emit ⟨.done turn.chatId
      (finalTextForDoneFrame collector.finalText collector.buffer) (some message) false, ""⟩
  else do
    Async.emit (errorEvent CodexErrorCode.streamDropped
      (some "Codex stream ended without completion"))
    emitEvent cfg turn .turnFailed

/-- `stream_turn` -/
def streamTurn : StreamCode Unit := do
  let outcome ← Async.attempt
    (Async.forEach (streamEvent cfg turn) (Async.generator (runTurn cfg turn.chatId) ()))
  match outcome with
  | .error error => streamFailed cfg turn error
  | .ok (some .failed) => pure ()
  | .ok (some .done) | .ok none => streamDone cfg turn

end
end CodexServer
