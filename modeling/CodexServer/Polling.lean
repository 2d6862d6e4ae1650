import CodexServer.Library.Transition
import Mathlib.Data.List.ReduceOption
import Mathlib.Logic.Function.Basic

/-!
# Polling for updates

The worker polls whose token is in the lock. Its `PollingMode` has a task that polls, one that renews
the lock and one that waits for it, and they start and end one another. A step takes a task, or the
service that starts and stops the mode, from one await to the next; a command to Redis takes effect
when it is answered, and it may have taken effect though no answer comes.
-/

namespace CodexServer.Polling

inductive Holder
  | mine (token : Nat)
  | other
deriving DecidableEq

inductive Job
  /-- `start_polling`, launched under a token. -/
  | polling (token : Nat)
  /-- In the sleep of `_renew_lock`. -/
  | renewSleep
  | renewEval (token : Nat)
  /-- In the `stop_polling` of `_handle_lock_lost`. -/
  | lockLost
  /-- In the sleep of `_wait_for_lock`. -/
  | waitSleep
  | waitAcquire (token : Nat)
deriving DecidableEq

structure Task where
  job : Job
  /-- It has been cancelled, or polling has been signalled to stop. -/
  told : Bool := false
deriving DecidableEq

inductive Caller
  | idle
  /-- In the `_acquire_lock` of `start`. -/
  | starting (token : Nat)
  | started
  /-- In `stop`, at the cancelled task; the rest are still to be cancelled. -/
  | awaiting (id : Nat) (rest : List Nat)
  /-- In the `stop_polling` of `stop`. -/
  | stoppingPolling
  | releasing (token : Nat)
deriving DecidableEq

structure PollingMode where
  lockToken : Option Nat := none
  pollingTask : Option Nat := none
  lockRenewTask : Option Nat := none
  lockWaitTask : Option Nat := none
  tasks : Nat → Option Task := fun _ => none
  nextTask : Nat := 0
  caller : Caller := .idle
  /-- The lock in Redis. -/
  key : Option Holder := none
  nextToken : Nat := 0
  /-- The tokens it was told to have acquired, and to have lost. -/
  acquired : List Nat := []
  lost : List Nat := []

namespace PollingMode

variable (mode : PollingMode)

def isOwner : Bool := mode.lockToken.isSome

def stopping : Bool :=
  match mode.caller with
  | .awaiting .. | .stoppingPolling | .releasing _ => true
  | .idle | .starting _ | .started => false

def setTask (id : Nat) (task : Option Task) : PollingMode :=
  { mode with tasks := Function.update mode.tasks id task }

def createWait : PollingMode :=
  { mode with
    tasks := Function.update mode.tasks mode.nextTask (some { job := .waitSleep })
    nextTask := mode.nextTask + 1
    lockWaitTask := some mode.nextTask }

/-- `_launch` -/
def launch (token : Nat) : PollingMode :=
  let polling := Function.update mode.tasks mode.nextTask (some { job := .polling token })
  { mode with
    tasks := Function.update polling (mode.nextTask + 1) (some { job := .renewSleep })
    nextTask := mode.nextTask + 2
    pollingTask := some mode.nextTask
    lockRenewTask := some (mode.nextTask + 1) }

/-- `SET` with `NX` does nothing to a key that is there. -/
def setLock (token : Nat) : PollingMode :=
  { mode with key := mode.key.orElse fun _ => some (.mine token) }

/-- What `_acquire_lock` does once it has the lock. -/
def acquire (token : Nat) : PollingMode :=
  { mode.setLock token with
    lockToken := some token
    acquired := token :: mode.acquired }

/-- An `_acquire_lock` that gets no answer. -/
def unanswered (token : Nat) (executed : Bool) : PollingMode :=
  if executed then mode.setLock token else mode

def signalStop : PollingMode :=
  { mode with tasks := fun id => (mode.tasks id).map fun task =>
      match task.job with
      | .polling _ => { task with told := true }
      | _ => task }

/-- `_handle_lock_lost` up to its await. -/
def handleLockLost (id token : Nat) : PollingMode :=
  { (mode.setTask id (some { job := .lockLost })).signalStop with
    lockToken := none
    lost := token :: mode.lost }

/-- The rest of it. -/
def standBy (id : Nat) : PollingMode :=
  { mode.setTask id none with pollingTask := none, lockRenewTask := none }.createWait

/-- The loop of `stop`: a task that is over is not waited for. -/
def cancelNext (ids : List Nat) : PollingMode :=
  match ids.dropWhile fun id => (mode.tasks id).isNone with
  | id :: rest =>
      { mode.setTask id ((mode.tasks id).map fun task => { task with told := true }) with
        caller := .awaiting id rest }
  | [] =>
      { mode.signalStop with
        lockWaitTask := none
        lockRenewTask := none
        pollingTask := none
        caller := .stoppingPolling }

/-- `_release_lock` up to its await. -/
def releaseLock : PollingMode :=
  match mode.lockToken with
  | none => { mode with caller := .idle }
  | some token => { mode with lockToken := none, caller := .releasing token }

/-- The release script deletes the key if it has the token. -/
def deleteLock (token : Nat) : PollingMode :=
  { mode with key := mode.key.filter fun holder => holder ≠ .mine token }

end PollingMode

inductive Action
  | start
  | stop
  /-- The service goes on: its command is answered, or its await is over. -/
  | callerProceeds
  | callerFails (executed : Bool)
  | startCancelled (executed : Bool)
  /-- A task goes on: its sleep is over, or its command is answered. -/
  | proceeds (id : Nat)
  | fails (id : Nat) (executed : Bool)
  | cancelled (id : Nat) (executed : Bool)
  /-- Polling ends: by itself, by an exception, or because it was told to. -/
  | pollingEnds (id : Nat)
  | keyExpires
  | otherAcquires

section Step

-- `stopReturns`: when the dispatcher's `stop_polling` returns or raises.
variable (stopReturns : PollingMode → Bool) (mode : PollingMode)

open PollingMode

def proceed (id : Nat) : Job → Option PollingMode
  | .polling _ => none
  | .renewSleep =>
      match mode.lockToken with
      | none => some (mode.setTask id none)
      | some token => some (mode.setTask id (some { job := .renewEval token }))
  | .renewEval token =>
      if mode.key = some (.mine token) then some (mode.setTask id (some { job := .renewSleep }))
      else some (mode.handleLockLost id token)
  | .lockLost => if stopReturns mode then some (mode.standBy id) else none
  | .waitSleep =>
      some { mode.setTask id (some { job := .waitAcquire mode.nextToken }) with
        nextToken := mode.nextToken + 1 }
  | .waitAcquire token =>
      match mode.key with
      | none => some (((mode.acquire token).setTask id none).launch token)
      | some _ => some (mode.setTask id (some { job := .waitSleep }))

/-- `RedisError` -/
def fail (id : Nat) (executed : Bool) : Job → Option PollingMode
  | .renewEval token => some (mode.handleLockLost id token)
  | .waitAcquire token =>
      some ((mode.unanswered token executed).setTask id (some { job := .waitSleep }))
  | _ => none

/-- `CancelledError` -/
def cancel (id : Nat) (executed : Bool) : Job → Option PollingMode
  | .polling _ => none
  | .waitAcquire token => some ((mode.unanswered token executed).setTask id none)
  | _ => some (mode.setTask id none)

def callerProceed : Caller → Option PollingMode
  | .starting token =>
      match mode.key with
      | none => some { (mode.acquire token).launch token with caller := .started }
      | some _ => some { mode.createWait with caller := .started }
  | .awaiting id rest => if (mode.tasks id).isNone then some (mode.cancelNext rest) else none
  | .stoppingPolling => if stopReturns mode then some mode.releaseLock else none
  | .releasing token => some { mode.deleteLock token with caller := .idle }
  | .idle | .started => none

def callerFail (executed : Bool) : Caller → Option PollingMode
  | .starting token =>
      some { (mode.unanswered token executed).createWait with caller := .started }
  | .releasing token =>
      if executed then some { mode.deleteLock token with caller := .idle }
      else some { mode with caller := .idle }
  | _ => none

def step : Action → Option PollingMode
  | .start =>
      if mode.caller = .idle then
        some { mode with caller := .starting mode.nextToken, nextToken := mode.nextToken + 1 }
      else none
  | .stop =>
      if mode.caller = .started then
        some (mode.cancelNext
          [mode.lockWaitTask, mode.lockRenewTask, mode.pollingTask].reduceOption)
      else none
  | .callerProceeds => callerProceed stopReturns mode mode.caller
  | .callerFails executed => callerFail mode executed mode.caller
  | .startCancelled executed =>
      match mode.caller with
      | .starting token => some { mode.unanswered token executed with caller := .started }
      | _ => none
  | .proceeds id =>
      match mode.tasks id with
      | some ⟨job, false⟩ => proceed stopReturns mode id job
      | _ => none
  | .fails id executed =>
      match mode.tasks id with
      | some ⟨job, false⟩ => fail mode id executed job
      | _ => none
  | .cancelled id executed =>
      match mode.tasks id with
      | some ⟨job, true⟩ => cancel mode id executed job
      | _ => none
  | .pollingEnds id =>
      match mode.tasks id with
      | some ⟨.polling _, _⟩ => some (mode.setTask id none)
      | _ => none
  | .keyExpires => some { mode with key := none }
  | .otherAcquires => some { mode with key := mode.key.orElse fun _ => some .other }

end Step

end CodexServer.Polling
