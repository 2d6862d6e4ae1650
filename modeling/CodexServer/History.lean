import CodexServer.Control

/-!
# What is on record about a thread

No code reads these records. They say what a thread has been answered so far, which is what the
properties of a run are about: which frames it has appended, whether it has persisted a final
message, on what grounds it takes a turn for dead.
-/

namespace CodexServer

/-! ### Executions -/

structure ExecHistory where
  /-- The row read at the start, and whether its user was found. -/
  found : Option (Option TurnRow) := none
  user : Option Bool := none
  /-- The execution took another one for the owner of the turn. -/
  skipped : Bool := false
  leased : Option Nat := none
  /-- Codex's ids of the thread and the turn, and the answer of `mark_running` for them. -/
  codex : Option (String × String) := none
  marked : Option Bool := none
  /-- A notification of the Codex turn came in, and what the notifications amount to. -/
  received : Bool := false
  collector : StreamCollector := {}
  partials : List Nat := []
  persisted : Bool := false
  appended : List ChatEvent := []
  /-- The teardown has reached the lease. -/
  released : Bool := false
  /-- The status asked for in `finalize_once`, and the answer. -/
  requested : Option (TerminalStatus × Bool) := none
  /-- Something was raised after the terminal frame and before the outcome was committed. -/
  late : Bool := false
  /-- Something was raised, or ownership was lost, after the final persist and before that. -/
  torn : Bool := false
  /-- Something was raised by PostgreSQL, Redis or a cancellation of an access to them. -/
  faulted : Bool := false

/-- What goes to Codex or comes from it, and what the outcome of a turn does not wait for. -/
def Op.isExternal : Op → Bool
  | .external _ | .nextNote _ => true
  | _ => false

def Op.isLeaseAcquisition : Op → Bool
  | .setLeaseNx .. => true
  | _ => false

namespace ExecHistory

variable (history : ExecHistory)

def hasTerminal : Bool := history.appended.any ChatEvent.isTerminal

def hasDone : Bool := history.appended.any ChatEvent.isDone

def hasError : Bool := history.appended.any ChatEvent.isError

/-- What is raised here does not leave the execution: the Redis commands that answer `False`
instead, the end of the heartbeat task, and the publication of the safety net. -/
def swallowed (op : Op) (fault : Fault) : Bool :=
  match op with
  | .stopHeartbeat => true
  | .setActiveNx .. | .getActive _ | .delActiveIfEq .. | .setLeaseNx .. | .releaseLease ..
  | .peekSteer _ | .consumeSteer .. => fault.isRedisError
  | .xadd .. | .expireStream _ => history.released && fault != .cancelled
  | _ => false

def exposed : Bool := history.hasTerminal && history.requested.isNone

def pending : Bool := history.persisted && history.requested.isNone

def fault (op : Op) (fault : Fault) : ExecHistory :=
  { history with
    skipped := history.skipped || (history.swallowed op fault && op.isLeaseAcquisition)
    late := history.late || (history.exposed && !history.swallowed op fault)
    torn := history.torn || (history.pending && !history.swallowed op fault)
    faulted := history.faulted || !op.isExternal }

def done (turnId : Nat) : (op : Op) → op.Val → ExecHistory
  | .getTurn _, found => { history with found := some found }
  | .getUser _, user => { history with user := some user }
  | .getActive _, holder =>
      { history with skipped := history.skipped || decide (holder = some turnId) }
  | .setLeaseNx _ holder, acquired =>
      { history with
        leased := if acquired then some holder else none
        skipped := history.skipped || !acquired }
  | .external (.startTurn (.ok ids)), _ => { history with codex := some ids }
  | .markRunning .., marked => { history with marked := some marked }
  | .nextNote (.event event), _ =>
      { history with received := true, collector := history.collector.absorb event }
  | .nextNote (.idle _), _ => { history with received := true }
  | .persistPartial .., id => { history with partials := history.partials ++ [id] }
  | .persistFinal .., _ => { history with persisted := true }
  | .xadd _ event, _ => { history with appended := history.appended ++ [event] }
  | .discardActiveLease .., _ => { history with released := true }
  | .finalizeOnce _ status _ _, won => { history with requested := some (status, won) }
  | .ownershipLost, lost => { history with torn := history.torn || (history.pending && lost) }
  | _, _ => history

def next (turnId : Nat) (op : Op) : Except Fault op.Val → ExecHistory
  | .ok value => history.done turnId op value
  | .error raised => history.fault op raised

end ExecHistory

/-! ### Handlers and recovery -/

def Op.isLeaseCheck : Op → Bool
  | .leaseExists _ => true
  | _ => false

/-- The steer, with its note, and the interrupt that a handler sends to the running turn. -/
def Op.isControlRpc : Op → Bool
  | .external .sendSteer | .external .sendInterrupt | .noteSteer .. => true
  | _ => false

structure ControlHistory where
  /-- The row the code looks at. -/
  found : Option (Option TurnRow) := none
  /-- The rows whose heartbeat was seen to be too old. -/
  stale : List TurnRow := []
  /-- The row has been compared with the clock. -/
  weighed : Bool := false
  /-- No lease was seen, or asking for it failed. -/
  dead : Bool := false
  /-- Codex was seen to run another turn. -/
  rejected : Bool := false
  /-- The turn this handler has created and not enqueued. -/
  created : Option Nat := none
  snapshot : List Nat := []
  finalized : List Nat := []
  faulted : Bool := false

namespace ControlHistory

variable (history : ControlHistory)

def examined : Option TurnRow := history.found.bind id

def done : (op : Op) → op.Val → ControlHistory
  | .getTurn _, found | .getActiveForChat _, found => { history with found := some found }
  | .findStaleActive _, rows => { history with stale := rows }
  | .activeLeases _, turnIds => { history with snapshot := turnIds }
  | .clock, now =>
      { history with
        stale := history.stale ++ history.examined.toList.filter fun row =>
          Recovery.staleThreshold ≤ now - row.heartbeatAt
        weighed := true }
  | .leaseExists _, alive => { history with dead := history.dead || !alive }
  | .createTurn _, created => { history with created := created.map TurnRow.id }
  | .enqueue _, _ => { history with created := none }
  | .finalizeOnce turnId _ _ _, _ => { history with finalized := turnId :: history.finalized }
  | _, _ => history

def fault (op : Op) (fault : Fault) : ControlHistory :=
  { history with
    dead := history.dead || (op.isLeaseCheck && fault.isRedisError)
    rejected := history.rejected || (op.isControlRpc && fault.isStaleSidecarTurn)
    faulted := history.faulted || !op.isExternal }

def next (op : Op) : Except Fault op.Val → ControlHistory
  | .ok value => history.done op value
  | .error raised => history.fault op raised

end ControlHistory
end CodexServer
