import CodexServer.History
import CodexServer.Runner
import CodexServer.World
import CodexServer.Library.Transition

/-!
# The processes of a deployment

Worker processes run executions with their heartbeats; web processes run handlers and recovery. One
step is one await of one of them, or the clock, the queue, the loss of a message, or the end of a
process. Any await may raise instead of being answered.
-/

open Transition

namespace CodexServer

structure Execution where
  cfg : ExecConfig
  program : Thread
  heartbeat : Option Heartbeat
  history : ExecHistory
  /-- Its process is there. -/
  running : Bool

inductive ControlKind
  | handler (prepared : PreparedRunTurn)
  /-- `reconcile_stale_turns` at startup. -/
  | sweep
  /-- A caller that reads a row and hands it to `reconcile_if_stale`. -/
  | inline (turnId : Nat)
  /-- The listener, on a message about a lease. -/
  | listener (turnId acquisition : Nat)
  /-- The shutdown of a worker process. -/
  | shutdown (holder : Nat)

def ControlKind.code : ControlKind → Thread
  | handler prepared => (Handler.runTurn prepared).thread
  | sweep => Recovery.reconcileStaleTurns.thread
  | inline turnId => (Recovery.reconcileRead turnId).thread
  | listener turnId _ => (Recovery.leaseExpiredMessage turnId).thread
  | shutdown holder => ControlCode.thread (Lease.releaseAllLocal holder)

structure Control where
  kind : ControlKind
  program : Thread
  history : ControlHistory
  running : Bool

structure Cluster where
  world : World
  executions : List Execution
  controls : List Control

/-- What is not an access to another system does not fail. -/
def Op.isLocal : Op → Bool
  | .clock | .startHeartbeat .. | .ownershipLost | .addActiveLease .. | .discardActiveLease ..
  | .activeLeases _ => true
  | _ => false

/-- The answer to an operation: it succeeds, or it raises and has no effect. -/
def World.answer (world : World) (self : Nat) (lost : Bool) (raised : Option Fault) (op : Op) :
    Except Fault op.Val × World :=
  match raised with
  | none =>
      let (value, after) := world.perform self lost op
      (.ok value, after)
  | some fault => (.error fault, world)

/-- What the heartbeat task awaits, asleep nothing that could fail. -/
def Heartbeat.await (heartbeat : Heartbeat) (world : World) (self : Nat) (raised : Option Fault) :
    Except Fault Bool × World :=
  match heartbeat.point with
  | .row => world.answer self false raised (.heartbeat heartbeat.turnId)
  | .lock => world.answer self false raised (.setActiveIfEq heartbeat.chatId heartbeat.turnId)
  | .lease => world.answer self false raised (.refreshLease heartbeat.turnId heartbeat.holder)
  | .sleeping | .stopped => (.ok true, world)

/-- What a thread awaits next; a thread that awaits nothing has ended. -/
def Thread.op : Thread → Option Op
  | .call op _ => some op
  | .ret _ => none
  | .emit out _ => nomatch out

def Thread.ended (thread : Thread) : Bool := thread.op.isNone

namespace Execution

def start (cfg : ExecConfig) : Execution := ⟨cfg, executeTurn cfg, none, {}, true⟩

variable (execution : Execution)

def turnId : Nat := execution.cfg.turnId

/-- `ownership_lost.is_set()` -/
def ownershipLost : Bool := execution.heartbeat.any Heartbeat.ownershipLost

/-- The heartbeat task after an await of the execution. -/
def heartbeatAfter : Op → Option Heartbeat
  | .startHeartbeat turnId chatId holder => some (Heartbeat.start turnId chatId holder)
  | .stopHeartbeat => execution.heartbeat.map fun heartbeat => { heartbeat with point := .stopped }
  | _ => execution.heartbeat

/-- One await of the execution. -/
def advance (self : Nat) (raised : Option Fault) (world : World) : Option (Execution × World) :=
  match execution.program with
  | .call op next =>
      if execution.running ∧ (raised.isNone ∨ !op.isLocal) then
        let (answer, after) := world.answer self execution.ownershipLost raised op
        some ({ execution with
          program := next answer
          heartbeat := execution.heartbeatAfter op
          history := execution.history.next execution.turnId op answer }, after)
      else none
  | .ret _ => none
  | .emit out _ => nomatch out

/-- One await of its heartbeat task. -/
def beat (self : Nat) (raised : Option Fault) (world : World) : Option (Execution × World) :=
  match execution.heartbeat with
  | some heartbeat =>
      if execution.running ∧ heartbeat.point ≠ .stopped ∧ (raised.isNone ∨ heartbeat.op.isSome) then
        let (answer, after) := heartbeat.await world self raised
        some ({ execution with heartbeat := some (heartbeat.next answer) }, after)
      else none
  | none => none

/-- The execution has not come to an end. -/
def live : Bool := execution.running && !execution.program.ended

def stop : Execution := { execution with running := false }

end Execution

namespace Control

def start (kind : ControlKind) : Control := ⟨kind, kind.code, {}, true⟩

variable (control : Control)

def advance (self : Nat) (raised : Option Fault) (world : World) : Option (Control × World) :=
  match control.program with
  | .call op next =>
      if control.running ∧ (raised.isNone ∨ !op.isLocal) then
        let (answer, after) := world.answer self false raised op
        some ({ control with
          program := next answer
          history := control.history.next op answer }, after)
      else none
  | .ret _ => none
  | .emit out _ => nomatch out

def live : Bool := control.running && !control.program.ended

def stop : Control := { control with running := false }

/-- The shutdown of this process. -/
def isShutdown (holder : Nat) : Bool :=
  match control.kind with
  | .shutdown process => process = holder
  | _ => false

end Control

/-! ### Steps -/

inductive ClusterAction
  | tick
  /-- The queue hands a turn to a worker process, and may keep a delivery of it. -/
  | deliver (cfg : ExecConfig) (again : Bool)
  | redeliver (turnId : Nat)
  | advance (id : Nat) (raised : Option Fault)
  | beat (id : Nat) (raised : Option Fault)
  | spawn (kind : ControlKind)
  | control (id : Nat) (raised : Option Fault)
  /-- The end of a worker process. -/
  | crash (holder : Nat)
  /-- The end of a web process, for one of its threads. -/
  | quit (id : Nat)
  /-- No listener gets the message: none is subscribed, or its process ends before it comes to it. -/
  | miss (turnId acquisition : Nat)

namespace Cluster

def init (users : Nat → Bool) : Cluster := ⟨World.empty users, [], []⟩

variable (cluster : Cluster)

/-- What the thread of a step awaits. -/
def op : ClusterAction → Option Op
  | .advance id _ => cluster.executions[id]?.bind fun execution => execution.program.op
  | .beat id _ => cluster.executions[id]?.bind fun execution => execution.heartbeat.bind Heartbeat.op
  | .control id _ => cluster.controls[id]?.bind fun control => control.program.op
  | _ => none

def deliver (cfg : ExecConfig) (again : Bool) : Option Cluster :=
  if cluster.world.queue cfg.turnId then
    some { cluster with
      world := { cluster.world with
        queue := Function.update cluster.world.queue cfg.turnId again }
      executions := cluster.executions ++ [Execution.start cfg] }
  else none

def redeliver (turnId : Nat) : Option Cluster :=
  if cluster.world.enqueued turnId then
    some { cluster with
      world := { cluster.world with queue := Function.update cluster.world.queue turnId true } }
  else none

/-- The listener takes each message once. -/
def spawn (kind : ControlKind) : Option Cluster :=
  let spawned := { cluster with controls := cluster.controls ++ [Control.start kind] }
  match kind with
  | .listener turnId acquisition =>
      if acquisition ∈ cluster.world.notices turnId then
        some { spawned with world := cluster.world.withoutNotice turnId acquisition }
      else none
  | _ => some spawned

def miss (turnId acquisition : Nat) : Option Cluster :=
  if acquisition ∈ cluster.world.notices turnId then
    some { cluster with world := cluster.world.withoutNotice turnId acquisition }
  else none

/-- A process ends with its threads and its registry, and the queue gets back what it had not
finished. -/
def crash (holder : Nat) : Cluster where
  world := { cluster.world with
    queue := fun turnId => cluster.world.queue turnId ||
      cluster.executions.any fun execution =>
        execution.turnId = turnId && execution.cfg.holder = holder && execution.live
    activeLeases := Function.update cluster.world.activeLeases holder [] }
  executions := cluster.executions.map fun execution =>
    if execution.cfg.holder = holder then execution.stop else execution
  controls := cluster.controls.map fun control =>
    if control.isShutdown holder then control.stop else control

def step : ClusterAction → Option Cluster
  | .tick => some { cluster with world := cluster.world.tick }
  | .deliver cfg again => cluster.deliver cfg again
  | .redeliver turnId => cluster.redeliver turnId
  | .advance id raised => do
      let execution ← cluster.executions[id]?
      let (advanced, world) ← execution.advance id raised cluster.world
      some { cluster with world := world, executions := cluster.executions.set id advanced }
  | .beat id raised => do
      let execution ← cluster.executions[id]?
      let (beaten, world) ← execution.beat id raised cluster.world
      some { cluster with world := world, executions := cluster.executions.set id beaten }
  | .spawn kind => cluster.spawn kind
  | .control id raised => do
      let control ← cluster.controls[id]?
      let (advanced, world) ← control.advance id raised cluster.world
      some { cluster with world := world, controls := cluster.controls.set id advanced }
  | .crash holder => some (cluster.crash holder)
  | .quit id => do
      let control ← cluster.controls[id]?
      some { cluster with controls := cluster.controls.set id control.stop }
  | .miss turnId acquisition => cluster.miss turnId acquisition

end Cluster
end CodexServer
