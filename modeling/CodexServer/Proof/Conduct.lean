import CodexServer.History
import CodexServer.Runner

/-!
# The rules an execution keeps to

`ExecAllowed` says what an execution may await after what it has been answered so far, and
`ExecEnded` what its record says when it is over. The predicates below them tie the variables of
`execute_turn_inner` and of `stream_turn` to the record: they are what holds between two awaits.
-/

namespace CodexServer

/-! ### The record after a fault -/

namespace ExecHistory

variable {history : ExecHistory} {op : Op} {raised : Fault}

@[simp] theorem fault_appended : (history.fault op raised).appended = history.appended := rfl
@[simp] theorem fault_requested : (history.fault op raised).requested = history.requested := rfl
@[simp] theorem fault_released : (history.fault op raised).released = history.released := rfl
@[simp] theorem fault_persisted : (history.fault op raised).persisted = history.persisted := rfl
@[simp] theorem fault_partials : (history.fault op raised).partials = history.partials := rfl
@[simp] theorem fault_received : (history.fault op raised).received = history.received := rfl
@[simp] theorem fault_collector : (history.fault op raised).collector = history.collector := rfl
@[simp] theorem fault_marked : (history.fault op raised).marked = history.marked := rfl
@[simp] theorem fault_codex : (history.fault op raised).codex = history.codex := rfl
@[simp] theorem fault_leased : (history.fault op raised).leased = history.leased := rfl
@[simp] theorem fault_found : (history.fault op raised).found = history.found := rfl
@[simp] theorem fault_user : (history.fault op raised).user = history.user := rfl

@[simp] theorem fault_hasTerminal :
    (history.fault op raised).hasTerminal = history.hasTerminal := rfl

@[simp] theorem fault_hasDone : (history.fault op raised).hasDone = history.hasDone := rfl

@[simp] theorem fault_hasError : (history.fault op raised).hasError = history.hasError := rfl

theorem fault_skipped (hop : op.isLeaseAcquisition = false) :
    (history.fault op raised).skipped = history.skipped := by
  simp [fault, hop]

theorem fault_skipped_of_raised (hraised : history.swallowed op raised = false) :
    (history.fault op raised).skipped = history.skipped := by
  simp [fault, hraised]

/-- Before the teardown a publication that fails is not swallowed. -/
theorem xadd_unswallowed {turnId : Nat} {event : ChatEvent} (hreleased : history.released = false) :
    history.swallowed (.xadd turnId event) raised = false := by
  simp [swallowed, hreleased]

theorem expireStream_unswallowed {turnId : Nat} (hreleased : history.released = false) :
    history.swallowed (.expireStream turnId) raised = false := by
  simp [swallowed, hreleased]

theorem hasTerminal_eq : history.hasTerminal = (history.hasDone || history.hasError) := by
  simp only [hasTerminal, hasDone, hasError]
  induction history.appended with
  | nil => rfl
  | cons event rest ih =>
      simp only [List.any_cons, ih, ChatEvent.isTerminal]
      ac_rfl

end ExecHistory

/-! ### What is allowed -/

/-- What an execution may await. It acts on its own turn alone, in the order in which the turn
begins, is streamed and ends. -/
def ExecAllowed (cfg : ExecConfig) (history : ExecHistory) : Op → Prop
  | .getTurn turnId => turnId = cfg.turnId
  | .getUser userId => ∃ row, history.found = some (some row) ∧ userId = row.userId
  | .setActiveNx _ turnId | .delActiveIfEq _ turnId | .updateLastEvent turnId _
  | .expireStream turnId => turnId = cfg.turnId
  | .setLeaseNx turnId holder =>
      turnId = cfg.turnId ∧ holder = cfg.holder ∧ history.leased = none ∧ history.skipped = false
  | .startHeartbeat turnId _ holder => turnId = cfg.turnId ∧ holder = cfg.holder
  | .addActiveLease turnId holder | .discardActiveLease turnId holder =>
      turnId = cfg.turnId ∧ history.leased = some holder
  | .releaseLease turnId holder =>
      turnId = cfg.turnId ∧ history.leased = some holder ∧ history.skipped = false
  | .getActive _ => history.leased = none
  | .markRunning turnId threadId codexTurnId =>
      turnId = cfg.turnId ∧ history.codex = some (threadId, codexTurnId) ∧ history.marked = none
  | .external (.startTurn _) => history.codex = none
  | .nextNote _ => history.hasTerminal = false ∧ history.marked.isSome
  | .persistPartial turnId draft _ =>
      turnId = cfg.turnId ∧ draft.isPartial ∧ history.received ∧ history.persisted = false
  | .persistFinal turnId draft partialIds =>
      turnId = cfg.turnId ∧ draft.isPartial = false ∧ history.received ∧
        history.persisted = false ∧ history.hasTerminal = false ∧ partialIds = history.partials
  | .emitEvent turnId _ kind => turnId = cfg.turnId ∧ kind ≠ .turnCompleted
  | .xadd turnId event =>
      turnId = cfg.turnId ∧ history.requested = none ∧
        (history.late = false → history.hasTerminal = false) ∧
        (event.isError ∨ history.received) ∧
        (event.isDone → history.persisted ∨ history.collector.hasContent = false)
  | .finalizeOnce turnId status _ _ =>
      turnId = cfg.turnId ∧ history.skipped = false ∧ history.requested = none ∧
        (status = .completed → history.hasDone) ∧
        (history.late = false → (history.hasDone → status = .completed) ∧
          (history.hasError → status = .failed)) ∧
        (history.torn = false → history.persisted → status = .completed)
  | .refresh | .peekSteer _ | .consumeSteer .. | .external _ | .stopHeartbeat
  | .ownershipLost => True
  | .getActiveForChat _ | .findStaleActive _ | .heartbeat _ | .createTurn _ | .enqueue _
  | .setActiveIfEq .. | .refreshLease .. | .leaseExists _ | .activeLeases _ | .bumpSteer _
  | .noteSteer .. | .clock => False

def execMonitor (cfg : ExecConfig) : Monitor Op Op.Val Fault ExecHistory where
  allowed := ExecAllowed cfg
  next history := history.next cfg.turnId

/-- What the record says when an execution is over. -/
structure ExecEnded (history : ExecHistory) : Prop where
  outcome : history.requested.isSome ∨ history.skipped ∨ history.faulted ∨
    history.found = some none ∨
    (∃ row, history.found = some (some row) ∧ row.status.isTerminal) ∨ history.user = some false
  published : history.late = false → history.skipped = false → history.hasTerminal →
    history.requested.isSome
  persisted : history.torn = false → history.skipped = false → history.persisted →
    history.requested.isSome

/-! ### The variables and the record -/

/-- The flags of the execution are about what has happened; the converse may have been missed. -/
structure Tracks (locals : ExecLocals) (history : ExecHistory) : Prop where
  requested : history.requested = none
  skip : locals.redeliverySkip = history.skipped
  published : locals.terminalPublished → history.hasTerminal
  completed : locals.terminalStatus = some .completed →
    history.hasDone ∧ locals.terminalPublished
  cancelled : locals.terminalStatus = some .cancelled → locals.cancelled
  lease : ∀ holder, locals.leaseHolder = some holder →
    history.leased = some holder ∧ history.skipped = false

/-- After something was raised. -/
structure Raised (locals : ExecLocals) (history : ExecHistory) : Prop
    extends Tracks locals history where
  late : history.hasTerminal → history.late
  torn : history.persisted → history.torn

/-- The flags say what there is to say about the outcome. -/
structure Settled (locals : ExecLocals) (history : ExecHistory) : Prop
    extends Tracks locals history where
  done : history.late = false → history.hasDone →
    locals.terminalStatus = some .completed ∧ locals.terminalPublished
  error : history.late = false → history.hasError →
    locals.terminalStatus = some .failed ∧ locals.terminalPublished
  persisted : history.torn = false → history.persisted → locals.terminalStatus = some .completed

/-- Before the terminal frame. -/
structure Streaming (locals : ExecLocals) (history : ExecHistory) : Prop where
  requested : history.requested = none
  status : locals.terminalStatus = none
  published : locals.terminalPublished = false
  skip : locals.redeliverySkip = false
  skipped : history.skipped = false
  released : history.released = false
  quiet : history.hasTerminal = false
  lease : ∀ holder, locals.leaseHolder = some holder → history.leased = some holder

/-- Something was raised, and the teardown has not begun. -/
structure Failing (locals : ExecLocals) (history : ExecHistory) : Prop
    extends Raised locals history where
  released : history.released = false

/-- The way into the `finally` clause: there is an outcome, unless the execution is to be skipped. -/
structure Concluded (locals : ExecLocals) (history : ExecHistory) : Prop
    extends Settled locals history where
  released : history.released = false
  outcome : locals.redeliverySkip ∨ locals.terminalStatus.isSome

section

variable {locals : ExecLocals} {history : ExecHistory} {op : Op} {failure : Fault}

theorem Raised.settled (h : Raised locals history) : Settled locals history where
  toTracks := h.toTracks
  done hlate hdone := by
    have := h.late (by simp [ExecHistory.hasTerminal_eq, hdone])
    simp [hlate] at this
  error hlate herror := by
    have := h.late (by simp [ExecHistory.hasTerminal_eq, herror])
    simp [hlate] at this
  persisted htorn hpersisted := by
    have := h.torn hpersisted
    simp [htorn] at this

/-- Whatever the flags were, a fault that leaves the execution is on record as late. -/
theorem Tracks.fault (h : Tracks locals history)
    (hraised : history.swallowed op failure = false) : Raised locals (history.fault op failure) where
  requested := h.requested
  skip := h.skip.trans (ExecHistory.fault_skipped_of_raised hraised).symm
  lease holder hholder := ⟨(h.lease holder hholder).1,
    (ExecHistory.fault_skipped_of_raised hraised).trans (h.lease holder hholder).2⟩
  published := h.published
  completed := h.completed
  cancelled := h.cancelled
  late hterminal := by
    simp only [ExecHistory.fault_hasTerminal] at hterminal
    simp [ExecHistory.fault, ExecHistory.exposed, hterminal, h.requested, hraised]
  torn hpersisted := by
    simp only [ExecHistory.fault_persisted] at hpersisted
    simp [ExecHistory.fault, ExecHistory.pending, hpersisted, h.requested, hraised]

theorem Streaming.tracks (h : Streaming locals history) : Tracks locals history where
  requested := h.requested
  skip := h.skip.trans h.skipped.symm
  published hpublished := by simp [h.published] at hpublished
  completed hcompleted := by simp [h.status] at hcompleted
  cancelled hcancelled := by simp [h.status] at hcancelled
  lease holder hholder := ⟨h.lease holder hholder, h.skipped⟩

theorem Tracks.failing (h : Tracks locals history)
    (hraised : history.swallowed op failure = false) (hreleased : history.released = false) :
    Failing locals (history.fault op failure) where
  toRaised := h.fault hraised
  released := hreleased

theorem Streaming.failing (h : Streaming locals history) (hpersisted : history.persisted = false) :
    Failing locals history where
  toTracks := h.tracks
  released := h.released
  late hterminal := by simp [h.quiet] at hterminal
  torn htorn := by simp [hpersisted] at htorn

end
end CodexServer
