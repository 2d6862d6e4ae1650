import CodexServer.ChatEvent
import CodexServer.TurnRow
import CodexServer.Library.Program

/-!
# What the turn code awaits

The runner, the RPC handlers and the recovery paths are programs over one list of operations: the
transactions on the turn rows and the messages, the Redis commands, the calls to Codex, and the few
things an execution does inside its own process. Each of them may be answered by a fault instead.
-/

open Async

namespace CodexServer

/-- What an await may raise. All but `cancelled` are `Exception`s. -/
inductive Fault
  | cancelled
  | redisError (text : String)
  | timeout (text : String)
  | rpcError (text : String)
  | staleTurnStream (text : String)
  | staleSidecarTurn (text : String)
  /-- What `kiq` is caught with: `TaskiqError`, `OSError`, `ValueError`. -/
  | queueError (text : String)
  | other (text : String)
deriving DecidableEq

def Fault.isRedisError : Fault → Bool
  | redisError _ => true
  | _ => false

def Fault.isStaleSidecarTurn : Fault → Bool
  | staleSidecarTurn _ => true
  | _ => false

/-- The exceptions of the code: a fault, or the probe's `CodexTurnTerminal`. -/
inductive Exn
  | fault (fault : Fault)
  | codexTurnTerminal (status : TurnStatus) (raw : String)
deriving DecidableEq

/-- `str(exc)` -/
def Exn.text : Exn → String
  | fault .cancelled => ""
  | fault (.redisError text) | fault (.timeout text) | fault (.rpcError text)
  | fault (.staleTurnStream text) | fault (.staleSidecarTurn text) | fault (.queueError text)
  | fault (.other text) => text
  | codexTurnTerminal status _ => "codex turn terminal: " ++ status.value

/-! ### Codex's part of a turn -/

/-- What comes in while the notifications of a turn are awaited: one that translates to an event, or
the idle deadline with what the status probe reports there. -/
inductive CodexNote
  | event (event : CodexEvent)
  | idle (probed : Option String)
deriving DecidableEq

/-- The reply to `turn/start`, an error or the ids of the thread and the turn, and the notifications
of the turn. After the last of them the stream ends. -/
structure CodexScript where
  start : Except String (String × String)
  notes : List CodexNote

/-! ### Operations -/

/-- The message an assistant row is made from. -/
structure MessageDraft where
  chatId : Nat
  text : String
  isPartial : Bool
  calls : List ToolCallRecord
  uploads : List Attachment
  clientId : Option String

inductive EventKind
  | turnCompleted
  | turnFailed
  | turnInterrupted
  | threadReset
deriving DecidableEq

/-- Awaits whose answer does not matter for what is modelled. -/
inductive External
  | publishBus
  | appendSteered
  | quarantine
  | openCodex
  | closeCodex
  | startTurn (reply : Except String (String × String))
  | probe
  | interrupt
  | sendSteer
  | sendInterrupt
  /-- `release_turn`: one slot less in the user's active counter, -/
  | decrActive
  /-- and a counter that is used up is deleted. -/
  | deleteActive
  /-- A message, an edit or a file sent to Telegram. -/
  | telegram

inductive Op
  | getTurn (turnId : Nat)
  | getUser (userId : Nat)
  | getActiveForChat (chatId : Nat)
  | findStaleActive (threshold : Nat)
  | markRunning (turnId : Nat) (codexThreadId codexTurnId : String)
  | updateLastEvent (turnId : Nat) (eventId : String)
  | heartbeat (turnId : Nat)
  | finalizeOnce (turnId : Nat) (status : TerminalStatus) (errorCode errorDetail : Option String)
  /-- One transaction: a partial message, and its journal entry when asked for. -/
  | persistPartial (turnId : Nat) (draft : MessageDraft) (emitJournal : Bool)
  /-- One transaction: the final message, its attachment to the turn, the deletion of the partial
  rows and the TURN_COMPLETED entry. -/
  | persistFinal (turnId : Nat) (draft : MessageDraft) (partialIds : List Nat)
  | refresh
  | emitEvent (turnId chatId : Nat) (kind : EventKind)
  /-- One transaction: the row of `try_create_starting`, unless the chat has an active turn. -/
  | createTurn (payload : TurnCreate)
  | enqueue (turnId : Nat)
  | setActiveNx (chatId turnId : Nat)
  | getActive (chatId : Nat)
  | setActiveIfEq (chatId turnId : Nat)
  | delActiveIfEq (chatId turnId : Nat)
  | setLeaseNx (turnId holder : Nat)
  | refreshLease (turnId holder : Nat)
  | releaseLease (turnId holder : Nat)
  | leaseExists (turnId : Nat)
  | addActiveLease (turnId holder : Nat)
  | discardActiveLease (turnId holder : Nat)
  | activeLeases (holder : Nat)
  | peekSteer (turnId : Nat)
  | bumpSteer (turnId : Nat)
  | noteSteer (chatId : Nat) (codexTurnId : String)
  | consumeSteer (chatId : Nat) (codexTurnId : String)
  | xadd (turnId : Nat) (event : ChatEvent)
  | expireStream (turnId : Nat)
  | external (call : External)
  | nextNote (note : CodexNote)
  | clock
  | startHeartbeat (turnId chatId holder : Nat)
  | stopHeartbeat
  | ownershipLost

/-- The answers. -/
abbrev Op.Val : Op → Type
  | getTurn _ | getActiveForChat _ | createTurn _ => Option TurnRow
  | findStaleActive _ => List TurnRow
  | activeLeases _ => List Nat
  | getUser _ | markRunning .. | heartbeat _ | finalizeOnce .. | setActiveNx .. | setActiveIfEq ..
  | delActiveIfEq .. | setLeaseNx .. | refreshLease .. | releaseLease .. | leaseExists _
  | consumeSteer .. | ownershipLost => Bool
  | persistPartial .. => Nat
  | persistFinal .. => AssistantMessage
  | getActive _ => Option Nat
  | xadd .. => String
  | clock | peekSteer _ => Nat
  | updateLastEvent .. | refresh | emitEvent .. | expireStream _ | external _ | nextNote _
  | bumpSteer _ | noteSteer .. | enqueue _ | addActiveLease .. | discardActiveLease ..
  | startHeartbeat .. | stopHeartbeat => Unit

/-! ### Code -/

/-- Code that awaits these operations, yields `Out` and has local variables `Local`. -/
abbrev Code (Out Local α : Type) := Async Op Op.Val Fault Exn Out Local α

/-- A running thread of control. -/
abbrev Thread := Program Op Op.Val Fault Empty (Except Exn Unit)

section

variable {Out Local α : Type}

def await (op : Op) : Code Out Local op.Val := Async.await Exn.fault op

/-- `except RedisError: return default`. -/
def orOnRedisError (code : Code Out Local α) (default : α) : Code Out Local α :=
  Async.tryCatch code fun
    | .fault (.redisError _) => pure default
    | error => Async.throw error

/-- `except Exception`: everything but a cancellation. -/
def exceptException (code : Code Out Local α) (handler : Exn → Code Out Local α) :
    Code Out Local α :=
  Async.tryCatch code fun
    | .fault .cancelled => Async.throw (.fault .cancelled)
    | error => handler error

end

/-! ### Their rules -/

section

variable {Out Local History α : Type} {monitor : Monitor Op Op.Val Fault History}
  {yields : Out → (History → Prop) → History → Prop} {locals : Local} {history : History}

theorem wp_await (op : Op) {post : Except Exn op.Val → Local → History → Prop} :
    Async.wp monitor yields (await op : Code Out Local op.Val) post locals history ↔
      monitor.allowed history op ∧
      (∀ value, post (.ok value) locals (monitor.next history op (.ok value))) ∧
      ∀ raised, post (.error (.fault raised)) locals (monitor.next history op (.error raised)) :=
  Async.wp_await Exn.fault op

theorem wp_await_bind (op : Op) (continuation : op.Val → Code Out Local α)
    {post : Except Exn α → Local → History → Prop} :
    Async.wp monitor yields (await op >>= continuation) post locals history ↔
      monitor.allowed history op ∧
      (∀ value, Async.wp monitor yields (continuation value) post locals
        (monitor.next history op (.ok value))) ∧
      ∀ raised, post (.error (.fault raised)) locals (monitor.next history op (.error raised)) := by
  rw [wp_bind, wp_await]
  rfl

variable (code : Code Out Local α) {post : Except Exn α → Local → History → Prop}

theorem wp_orOnRedisError (default : α) :
    Async.wp monitor yields (orOnRedisError code default) post locals history ↔
      Async.wp monitor yields code (either (fun value => post (.ok value)) fun
        | .fault (.redisError _) => post (.ok default)
        | error => post (.error error)) locals history := by
  unfold orOnRedisError
  rw [wp_tryCatch]
  refine iff_of_eq (congrArg (fun post => Async.wp monitor yields code post locals history) ?_)
  funext outcome
  cases outcome with
  | ok value => rfl
  | error error =>
      cases error with
      | codexTurnTerminal => rfl
      | fault fault => cases fault <;> rfl

theorem wp_exceptException (handler : Exn → Code Out Local α) :
    Async.wp monitor yields (exceptException code handler) post locals history ↔
      Async.wp monitor yields code (either (fun value => post (.ok value)) fun
        | .fault .cancelled => post (.error (.fault .cancelled))
        | error => Async.wp monitor yields (handler error) post) locals history := by
  unfold exceptException
  rw [wp_tryCatch]
  refine iff_of_eq (congrArg (fun post => Async.wp monitor yields code post locals history) ?_)
  funext outcome
  cases outcome with
  | ok value => rfl
  | error error =>
      cases error with
      | codexTurnTerminal => rfl
      | fault fault => cases fault <;> rfl

variable {code}

theorem keeps_orOnRedisError {Inv : Local → History → Prop} (hyields : Program.Monotone yields)
    (h : Async.Keeps monitor yields Inv code) (default : α) :
    Async.Keeps monitor yields Inv (orOnRedisError code default) := by
  refine h.tryCatch hyields fun error => ?_
  split
  · exact keeps_pure default
  · exact keeps_throw _

theorem keeps_exceptException {Inv : Local → History → Prop} (hyields : Program.Monotone yields)
    (h : Async.Keeps monitor yields Inv code) {handler : Exn → Code Out Local α}
    (hhandler : ∀ error, Async.Keeps monitor yields Inv (handler error)) :
    Async.Keeps monitor yields Inv (exceptException code handler) := by
  refine h.tryCatch hyields fun error => ?_
  split
  · exact keeps_throw _
  · exact hhandler error

end
end CodexServer
