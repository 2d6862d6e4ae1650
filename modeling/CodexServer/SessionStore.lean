import Mathlib.Logic.Function.Basic
import Mathlib.Data.List.Basic

/-!
# The store of chat sessions

One future per key. Whoever claims a key that has none opens the session; the others wait for what
the first of them has opened. The lock and the task of a session decide nothing here and are left
out.
-/

namespace CodexServer

structure SessionBootstrap where
  dbUserId : Nat
  dbChatId : Nat
  isAdmin : Bool
deriving DecidableEq

structure ChatSession where
  dbChatId : Nat
  dbUserId : Nat
  isAdmin : Bool
deriving DecidableEq

inductive SessionFuture
  | pending
  | result (session : ChatSession)
  | exception
  /-- By the cancellation of a task that waited for it. -/
  | cancelled
deriving DecidableEq

def SessionFuture.result? : SessionFuture → Option ChatSession
  | result session => some session
  | pending | exception | cancelled => none

/-- A future, with the arguments of the `_fulfil_slot` it was made for. -/
structure SessionAttempt (K B : Type) where
  key : K
  bootstrapArg : B
  future : SessionFuture

/-- `ChatSessionStore`. The futures made so far, and which of them a key has in `_sessions`. -/
structure SessionStore (K B : Type) where
  attempts : List (SessionAttempt K B) := []
  sessions : K → Option Nat := fun _ => none

namespace SessionStore

variable {K B : Type} [DecidableEq K] (store : SessionStore K B)

/-- `_sessions.get` -/
def get? (key : K) : Option Nat := store.sessions key

def future? (id : Nat) : Option SessionFuture := (store.attempts[id]?).map SessionAttempt.future

/-- What `_claim_slot` does. -/
inductive Claim
  /-- The future of somebody else. -/
  | joined (id : Nat)
  /-- A new one. -/
  | created (id : Nat)
  /-- `exception()` of a cancelled future raises. -/
  | raised
deriving DecidableEq

/-- `_claim_slot`. A failed attempt that is still in the map is replaced. -/
def claimSlot (key : K) : Claim :=
  match store.get? key with
  | none => .created store.attempts.length
  | some id =>
      match store.future? id with
      | some .exception | none => .created store.attempts.length
      | some .cancelled => .raised
      | some .pending | some (.result _) => .joined id

/-- The entry that a creator makes. -/
def insertSlot (key : K) (bootstrapArg : B) : SessionStore K B where
  attempts := store.attempts ++ [⟨key, bootstrapArg, .pending⟩]
  sessions := Function.update store.sessions key (some store.attempts.length)

def setFuture (id : Nat) (future : SessionFuture) : SessionStore K B :=
  { store with
    attempts := store.attempts.modify id fun attempt => { attempt with future := future } }

/-- `self._sessions.pop(key, None)` -/
def pop (key : K) : SessionStore K B :=
  { store with sessions := Function.update store.sessions key none }

/-- `_build_session`, after `_bootstrap`. -/
def buildSession (boot : SessionBootstrap) : ChatSession :=
  ⟨boot.dbChatId, boot.dbUserId, boot.isAdmin⟩

/-- The end of `_fulfil_slot`. `set_result` of a cancelled future raises. -/
def fulfilSlot (id : Nat) (session : ChatSession) : Option (SessionStore K B) :=
  if store.future? id = some .pending then some (store.setFuture id (.result session)) else none

/-- The `except` clause of `_fulfil_slot`; a cancelled future takes no exception. -/
def failSlot (key : K) (id : Nat) : SessionStore K B :=
  let popped := if store.get? key = some id then store.pop key else store
  if store.future? id = some .pending then popped.setFuture id .exception else popped

/-- A task that waits for the future is cancelled, and with it the future. -/
def cancelWaiter (id : Nat) : SessionStore K B :=
  if store.future? id = some .pending then store.setFuture id .cancelled else store

/-- The key's session is the one of the future. -/
def isCached (id : Nat) : Bool :=
  match store.attempts[id]? with
  | some attempt => store.get? attempt.key = some id
  | none => false

end SessionStore
end CodexServer
