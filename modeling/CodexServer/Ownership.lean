import CodexServer.Interface

/-!
# The lock of a chat and the lease of a turn

The chat lock holds the turn's id and the lease the id of the worker process. Both live thirty
seconds and are kept up by the heartbeat of the execution that took them.
-/

namespace CodexServer

variable {Out Local α : Type}

/-- `_LOCK_TTL_S` and `LEASE_TTL_S` -/
def lockTtl : Nat := 30

inductive LockAcquireOutcome
  | acquired
  /-- The same turn holds the lock already. -/
  | redelivery
  /-- Another turn of the chat holds the lock. -/
  | activeBusy
deriving DecidableEq

def LockAcquireOutcome.value : LockAcquireOutcome → String
  | acquired => "acquired"
  | redelivery => "redelivery"
  | activeBusy => "active_busy"

/-- `quarantine_thread` -/
def quarantineThread (threadId : String) : Code Out Local Unit :=
  if threadId = "" then pure ()
  else orOnRedisError (await (.external .quarantine)) ()

namespace Locks

def tryAcquireActive (chatId turnId : Nat) : Code Out Local Bool :=
  orOnRedisError (await (.setActiveNx chatId turnId)) false

def activeLockValue (chatId : Nat) : Code Out Local (Option Nat) :=
  orOnRedisError (await (.getActive chatId)) none

def releaseActive (chatId turnId : Nat) : Code Out Local Bool :=
  orOnRedisError (await (.delActiveIfEq chatId turnId)) false

/-- Someone holds the lock already. -/
def outcomeUnlocked (chatId turnId : Nat) : Code Out Local LockAcquireOutcome := do
  let holder ← activeLockValue chatId
  pure (if holder = some turnId then .redelivery else .activeBusy)

/-- The lock around some code, released on the way out when it was taken. -/
def holdTurnLocks (chatId turnId : Nat) (code : LockAcquireOutcome → Code Out Local Unit) :
    Code Out Local Unit := do
  let activeAcquired ← tryAcquireActive chatId turnId
  if activeAcquired then
    Async.tryFinally (code .acquired) do
      let _ ← releaseActive chatId turnId
      pure ()
  else
    let outcome ← outcomeUnlocked chatId turnId
    code outcome

end Locks

namespace Lease

/-- A lease that is taken is in the registry of its process until it is released. -/
def acquire (turnId holder : Nat) : Code Out Local Bool := do
  let acquired ← orOnRedisError (await (.setLeaseNx turnId holder)) false
  if acquired then do
    await (.addActiveLease turnId holder)
    pure true
  else pure false

def release (turnId holder : Nat) : Code Out Local Bool := do
  await (.discardActiveLease turnId holder)
  orOnRedisError (await (.releaseLease turnId holder)) false

/-- The release of one lease at shutdown, which stays in the registry when Redis fails. -/
def releaseRegistered (turnId holder : Nat) : Code Out Local Bool :=
  orOnRedisError
    (do
      let released ← await (.releaseLease turnId holder)
      await (.discardActiveLease turnId holder)
      pure released)
    false

def releaseLocal (holder : Nat) : List Nat → Code Out Local Nat
  | [] => pure 0
  | turnId :: rest => do
      let released ← releaseRegistered turnId holder
      let others ← releaseLocal holder rest
      pure (released.toNat + others)

/-- `release_all_local` -/
def releaseAllLocal (holder : Nat) : Code Out Local Nat := do
  let snapshot ← await (.activeLeases holder)
  releaseLocal holder snapshot

def exists_ (turnId : Nat) : Code Out Local Bool :=
  orOnRedisError (await (.leaseExists turnId)) false

end Lease

/-! ### The heartbeat -/

/-- Where `heartbeat_loop` is. -/
inductive HeartbeatPoint
  | sleeping
  | row
  | lock
  | lease
  | stopped
deriving DecidableEq

/-- A heartbeat task, and the event its execution looks at. -/
structure Heartbeat where
  turnId : Nat
  chatId : Nat
  holder : Nat
  point : HeartbeatPoint
  ownershipLost : Bool
deriving DecidableEq

namespace Heartbeat

def start (turnId chatId holder : Nat) : Heartbeat := ⟨turnId, chatId, holder, .sleeping, false⟩

variable (heartbeat : Heartbeat)

/-- What the loop awaits next; asleep or stopped it awaits none of these. -/
def op : Option Op :=
  match heartbeat.point with
  | .row => some (.heartbeat heartbeat.turnId)
  | .lock => some (.setActiveIfEq heartbeat.chatId heartbeat.turnId)
  | .lease => some (.refreshLease heartbeat.turnId heartbeat.holder)
  | .sleeping | .stopped => none

def lose : Heartbeat := { heartbeat with point := .stopped, ownershipLost := true }

/-- The loop after an answer. An exception ends the task without setting the event; the two Redis
commands turn a `RedisError` into `False`. -/
def next (answer : Except Fault Bool) : Heartbeat :=
  match heartbeat.point, answer with
  | .row, .ok true => { heartbeat with point := .lock }
  | .row, .ok false => heartbeat.lose
  | .row, .error _ => { heartbeat with point := .stopped }
  | .lock, .ok true => { heartbeat with point := .lease }
  | .lease, .ok true => { heartbeat with point := .sleeping }
  | .lock, .ok false | .lock, .error (.redisError _) => heartbeat.lose
  | .lease, .ok false | .lease, .error (.redisError _) => heartbeat.lose
  | .lock, .error _ | .lease, .error _ => { heartbeat with point := .stopped }
  | .sleeping, _ => { heartbeat with point := .row }
  | .stopped, _ => heartbeat

end Heartbeat
end CodexServer
