import Mathlib
import CodexServer.DeliveryRun

/-!
# The slot of a request

`run_turn` takes a slot of its user and hands it over to the job with the turn: whoever ends up with
it has to give it back, once. A slot is one unit of the user's active counter, and admins have none.
-/

open Program (Runs)

namespace CodexServer.Slots

open ChatRPC (RequestMove RunTurnRequest RequestLocals)
open RateLimit (UserKind)

/-- What `reserve_turn` takes from the counter, and `release_turn` gives back to it. -/
def slots (kind : UserKind) : Nat := if kind = .admin then 0 else 1

/-- A delivery of the job, and the kind of user that it read from the database. -/
structure JobRun where
  cfg : ExecConfig
  kind : UserKind
  delivery : Delivery cfg

/-- A request from its beginning to its end, with the deliveries of the job it has put into the
queue. The turn of the job is its user's. -/
structure RequestRun where
  userId : Nat
  kind : UserKind
  request : RunTurnRequest
  moves : List RequestMove
  result : Except Exn Unit × RequestLocals
  ran : Runs (ChatRPC.runTurn kind request {}) moves result
  jobs : List JobRun
  queued : ∀ job ∈ jobs, ∃ answer, .did (.control (.enqueue job.cfg.turnId)) answer ∈ moves
  own : ∀ job ∈ jobs, ∀ turn, job.delivery.turn = some turn → turn.userId = userId

/-! ### The releases

The DECR gives the slot back, whatever becomes of the DELETE after it. -/

def isReserved : RequestMove → Bool
  | .did (.reserveTurn _) (.ok (.ok _)) => true
  | _ => false

def isRelease : RequestMove → Bool
  | .did .decrActive (.ok _) => true
  | _ => false

def isJobRelease : ExecMove → Bool
  | .did (.external .decrActive) (.ok _) => true
  | _ => false

/-- What a delivery gives back to a user. -/
def JobRun.released (job : JobRun) (userId : Nat) : Nat :=
  if job.delivery.turn.map TurnRow.userId = some userId then
    job.delivery.moves.countP isJobRelease * slots job.kind
  else 0

namespace RequestRun

variable (run : RequestRun)

/-- The request has passed `reserve_turn`. -/
def reserved : Bool := run.moves.any isReserved

/-- What is given back to the user, by the handler and by the deliveries. -/
def released : Nat :=
  run.moves.countP isRelease * slots run.kind + (run.jobs.map (JobRun.released · run.userId)).sum

/-- What was taken has been given back, once. -/
def Conserved : Prop := run.released = slots run.kind

instance : Decidable run.Conserved := inferInstanceAs (Decidable (run.released = slots run.kind))

end RequestRun

/-! ### Who is left with the turn -/

/-- The lock or the lease tells the execution that the turn is somebody else's: the lock has the
turn's own id, or the lease is not to be had. -/
def skips (turnId : Nat) (body : List ExecMove) : Bool :=
  body.any fun
    | .did (.getActive _) (.ok holder) => holder = some turnId
    | .did (.setLeaseNx ..) (.ok acquired) => !acquired
    | .did (.setLeaseNx ..) (.error fault) => fault.isRedisError
    | _ => false

/-- The `finally` clause gets over this before the slot is given back: over all that the heartbeat task
ends with, a `RedisError` of the lease, and an `Exception` of the safety frame. After that nothing
matters any more. -/
def tolerated : ExecMove → Bool
  | .did .stopHeartbeat _ | .did (.external .deleteActive) _ => true
  | .did (.releaseLease ..) (.error fault) => fault.isRedisError
  | .did (.xadd ..) (.error fault) => fault ≠ .cancelled
  | .did (.expireStream _) (.error fault) => fault ≠ .cancelled
  | .did _ (.error _) => false
  | _ => true

def isHandover : RequestMove → Bool
  | .did (.control (.enqueue _)) (.ok _) => true
  | _ => false

def isFailedRelease : RequestMove → Bool
  | .did .decrActive (.error _) => true
  | _ => false

/-- The delivery finds its turn active and its user there, owns the turn, and nothing is raised
through its `finally` clause. -/
def JobRun.owns (job : JobRun) : Bool :=
  match job.delivery with
  | .executed _ _ run => !skips job.cfg.turnId run.body && run.leaving.all tolerated
  | _ => false

namespace RequestRun

variable (run : RequestRun)

/-- The job is enqueued, for all that the handler knows. -/
def handsOver : Bool := run.moves.any isHandover

def releaseFails : Bool := run.moves.any isFailedRelease

/-- The deliveries that own the turn, of a user who is no admin by then. -/
def owners : List JobRun := run.jobs.filter fun job => job.kind ≠ .admin && job.owns

/-- The handler keeps the slot as long as it does not know of a job, and gives it back. -/
def handlerOwns : Bool := !run.handsOver && !run.releaseFails

/-- There is one owner for the slot there is. -/
def settled : Bool :=
  if run.kind = .admin ∨ run.handlerOwns = true then run.owners.isEmpty else run.owners.length = 1

end RequestRun
end CodexServer.Slots
