import CodexServer.SessionStore
import CodexServer.Library.Transition

/-!
# The tasks at the store of chat sessions

`get_or_open`, `get`, `reset` and `interrupt_all_turns`, each in a task that may be cancelled
wherever it awaits. The lock of the store is never held across an await, so it is always free, and
what is done under it is one step.
-/

namespace CodexServer.SessionTasks

inductive Task
  /-- The creator of the future, in `_bootstrap`. -/
  | bootstrapping (id : Nat)
  /-- At `await future`. -/
  | waiting (id : Nat)
  /-- In the `_safe_resolve` of `reset`. -/
  | resetting (id : Nat)
  /-- In `_clear_persisted_thread`. -/
  | clearing
  /-- In the loop of `interrupt_all_turns`, at the first of the futures left. -/
  | interrupting (ids : List Nat)
  /-- In `cancel_session_turn`. -/
  | cancelling (rest : List Nat)
  | obtained (id : Nat) (session : ChatSession)
  /-- With no session, or by an exception. -/
  | ended
deriving DecidableEq

structure Tasks (K B : Type) where
  store : SessionStore K B := {}
  tasks : List Task := []
  /-- How often a key has been reset, and the count at the making of each future. -/
  resets : K → Nat := fun _ => 0
  periods : List Nat := []
  built : List (Nat × ChatSession) := []

namespace Tasks

variable {K B : Type} [DecidableEq K] (tasks : Tasks K B)

def spawn (task : Task) : Tasks K B := { tasks with tasks := tasks.tasks ++ [task] }

def setTask (index : Nat) (task : Task) : Tasks K B :=
  { tasks with tasks := tasks.tasks.set index task }

/-- `_get_or_open` up to its first await. -/
def getOrOpen (key : K) (bootstrapArg : B) : Tasks K B :=
  match tasks.store.claimSlot key with
  | .joined id =>
      match tasks.store.future? id with
      | some (.result session) => tasks.spawn (.obtained id session)
      | _ => tasks.spawn (.waiting id)
  | .created id =>
      { tasks.spawn (.bootstrapping id) with
        store := tasks.store.insertSlot key bootstrapArg
        periods := tasks.periods ++ [tasks.resets key] }
  | .raised => tasks.spawn .ended

def get (key : K) : Tasks K B :=
  match tasks.store.get? key with
  | none => tasks.spawn .ended
  | some id =>
      match tasks.store.future? id with
      | some (.result session) => tasks.spawn (.obtained id session)
      | _ => tasks.spawn .ended

/-- What a `reset` does that finds the future done. -/
def afterReset : SessionFuture → Task
  | .result _ => .clearing
  | .pending | .exception | .cancelled => .ended

/-- `reset` up to its first await. -/
def reset (key : K) : Tasks K B :=
  let popped := { tasks with
    store := tasks.store.pop key
    resets := Function.update tasks.resets key (tasks.resets key + 1) }
  match tasks.store.get? key with
  | none => popped.spawn .ended
  | some id =>
      match tasks.store.future? id with
      | some .pending => popped.spawn (.resetting id)
      | some future => popped.spawn (afterReset future)
      | none => popped.spawn .ended

/-- `list(self._sessions.values())` -/
def futures : List Nat := (List.range tasks.store.attempts.length).filter tasks.store.isCached

/-- `_bootstrap` returns. The creator goes on to `await future`. -/
def bootstrapped (index id : Nat) (boot : SessionBootstrap) : Tasks K B :=
  let session := SessionStore.buildSession boot
  let logged := { tasks with built := tasks.built ++ [(id, session)] }
  match tasks.store.fulfilSlot id session with
  | some store => { logged with store := store }.setTask index (.obtained id session)
  | none => logged.setTask index .ended

/-- `_bootstrap` raises an `Exception`. -/
def bootstrapFails (index id : Nat) : Tasks K B :=
  match tasks.store.attempts[id]? with
  | some attempt =>
      { tasks with store := tasks.store.failSlot attempt.key id }.setTask index .ended
  | none => tasks.setTask index .ended

/-- A task goes on whose await is over; `await` of a cancelled future raises. -/
def resume (index : Nat) : Task → Option (Tasks K B)
  | .waiting id =>
      match tasks.store.future? id with
      | some (.result session) => some (tasks.setTask index (.obtained id session))
      | some .exception | some .cancelled => some (tasks.setTask index .ended)
      | some .pending | none => none
  | .resetting id =>
      match tasks.store.future? id with
      | some .pending | none => none
      | some future => some (tasks.setTask index (afterReset future))
  | .clearing => some (tasks.setTask index .ended)
  | .interrupting [] => some (tasks.setTask index .ended)
  | .interrupting (id :: rest) =>
      match tasks.store.future? id with
      | some (.result _) => some (tasks.setTask index (.cancelling rest))
      | some .exception => some (tasks.setTask index (.interrupting rest))
      | some .cancelled => some (tasks.setTask index .ended)
      | some .pending | none => none
  | .cancelling rest => some (tasks.setTask index (.interrupting rest))
  | .bootstrapping _ | .obtained .. | .ended => none

def awaited : Task → Option Nat
  | .waiting id | .resetting id | .interrupting (id :: _) => some id
  | _ => none

/-- A task is cancelled at its await, and with it the future it awaits. -/
def cancel (index : Nat) (task : Task) : Tasks K B :=
  match awaited task with
  | some id => { tasks with store := tasks.store.cancelWaiter id }.setTask index .ended
  | none => tasks.setTask index .ended

end Tasks

inductive Action (K B : Type)
  | getOrOpen (key : K) (bootstrapArg : B)
  | get (key : K)
  | reset (key : K)
  | interruptAllTurns
  | bootstrapped (index : Nat) (boot : SessionBootstrap)
  | bootstrapFails (index : Nat)
  | resume (index : Nat)
  | cancel (index : Nat)

def step {K B : Type} [DecidableEq K] (tasks : Tasks K B) : Action K B → Option (Tasks K B)
  | .getOrOpen key bootstrapArg => some (tasks.getOrOpen key bootstrapArg)
  | .get key => some (tasks.get key)
  | .reset key => some (tasks.reset key)
  | .interruptAllTurns => some (tasks.spawn (.interrupting tasks.futures))
  | .bootstrapped index boot =>
      match tasks.tasks[index]? with
      | some (.bootstrapping id) => some (tasks.bootstrapped index id boot)
      | _ => none
  | .bootstrapFails index =>
      match tasks.tasks[index]? with
      | some (.bootstrapping id) => some (tasks.bootstrapFails index id)
      | _ => none
  | .resume index => (tasks.tasks[index]?).bind (tasks.resume index)
  | .cancel index =>
      match tasks.tasks[index]? with
      | some (.obtained ..) | some .ended | none => none
      | some task => some (tasks.cancel index task)

end CodexServer.SessionTasks
