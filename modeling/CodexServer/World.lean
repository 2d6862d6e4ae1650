import CodexServer.Ownership
import CodexServer.Library.ExpiringStore

/-!
# PostgreSQL and Redis

The state the threads of all processes share, and what each operation does to it. An operation is
one Redis command or one committed transaction, and nothing comes between its parts. Next to the
rows and the keys stand a few records that no code reads: which turn a message or a journal entry is
about, how often a lease was taken, who submitted a turn.
-/

namespace CodexServer

/-- An assistant row of `messages`, and the turn it was produced by. -/
structure StoredMessage where
  turnId : Nat
  message : AssistantMessage
deriving DecidableEq

structure JournalEntry where
  turnId : Nat
  chatId : Nat
  kind : EventKind
deriving DecidableEq

structure World where
  now : Nat
  users : Nat → Bool
  lastTurnId : Nat
  turns : Nat → Option TurnRow
  submitter : Nat → Option Nat
  lastMessageId : Nat
  messages : List StoredMessage
  journal : List JournalEntry
  /-- The turns handed to the queue, and those it has a delivery of to make. -/
  enqueued : Nat → Bool
  queue : Nat → Bool
  /-- `turn:active:{chat}`; the owner is the execution that took it. -/
  active : ExpiringStore Nat Nat Nat
  /-- `turn:lease:{turn}`; likewise. -/
  lease : ExpiringStore Nat Nat Nat
  acquisitions : Nat → Nat
  /-- `_ACTIVE_LEASES` of each process. -/
  activeLeases : Nat → List Nat
  /-- The `expired` messages for a lease that no listener has taken yet and that are not lost, each with
  the number of times the lease had been taken by then. -/
  notices : Nat → List Nat
  streams : Nat → List ChatEvent
  steerCount : Nat → Nat
  steerNote : Nat → Option String

namespace World

def empty (users : Nat → Bool) : World where
  now := 0
  users := users
  lastTurnId := 0
  turns _ := none
  submitter _ := none
  lastMessageId := 0
  messages := []
  journal := []
  enqueued _ := false
  queue _ := false
  active := ExpiringStore.empty
  lease := ExpiringStore.empty
  acquisitions _ := 0
  activeLeases _ := []
  notices _ := []
  streams _ := []
  steerCount _ := 0
  steerNote _ := none

variable (world : World)

def rows : List TurnRow := (List.range (world.lastTurnId + 1)).filterMap world.turns

def activeForChat (chatId : Nat) : Option TurnRow :=
  world.rows.find? fun row => row.chatId = chatId ∧ row.status.isActive

/-- An `UPDATE` of one row by its id, and whether it matched. -/
def updateTurn (turnId : Nat) (change : TurnRow → Option TurnRow) : Bool × World :=
  match (world.turns turnId).bind change with
  | some row => (true, { world with turns := Function.update world.turns turnId (some row) })
  | none => (false, world)

/-- The `INSERT` of a message, whose row is the answer. -/
def appendMessage (turnId : Nat) (draft : MessageDraft) : AssistantMessage × World :=
  let id := world.lastMessageId + 1
  let message : AssistantMessage :=
    ⟨id, draft.chatId, draft.text, draft.isPartial, draft.calls, draft.uploads, draft.clientId⟩
  (message, { world with
    lastMessageId := id
    messages := world.messages ++ [⟨turnId, message⟩] })

def emit (turnId chatId : Nat) (kind : EventKind) : World :=
  { world with journal := world.journal ++ [⟨turnId, chatId, kind⟩] }

def deleteMessages (ids : List Nat) : World :=
  { world with messages := world.messages.filter fun stored => stored.message.id ∉ ids }

def persistPartial (turnId : Nat) (draft : MessageDraft) (emitJournal : Bool) : Nat × World :=
  let (message, stored) := world.appendMessage turnId draft
  (message.id, if emitJournal then stored.emit turnId draft.chatId .turnFailed else stored)

def persistFinal (turnId : Nat) (draft : MessageDraft) (partialIds : List Nat) :
    AssistantMessage × World :=
  let (message, stored) := world.appendMessage turnId draft
  let attached := (stored.updateTurn turnId fun row => some (row.attachAssistantMessage message.id)).2
  (message, (attached.deleteMessages partialIds).emit turnId draft.chatId .turnCompleted)

/-- The row of a new turn; the partial unique index allows one active turn in a chat. -/
def createTurn (submitter : Nat) (payload : TurnCreate) : Option TurnRow × World :=
  if (world.activeForChat payload.chatId).isSome ∨ !world.users payload.userId then (none, world)
  else
    let turnId := world.lastTurnId + 1
    let row := (TurnRow.starting turnId payload world.now).setStreamKey
    (some row, { world with
      lastTurnId := turnId
      turns := Function.update world.turns turnId (some row)
      submitter := Function.update world.submitter turnId (some submitter) })

def setLease (lease : Bool × ExpiringStore Nat Nat Nat) : Bool × World :=
  (lease.1, { world with lease := lease.2 })

def setActive (active : Bool × ExpiringStore Nat Nat Nat) : Bool × World :=
  (active.1, { world with active := active.2 })

def acquireLease (self turnId holder : Nat) : Bool × World :=
  let (acquired, taken) :=
    world.setLease (world.lease.setNx turnId holder (world.now + lockTtl) self)
  (acquired, if acquired then
    { taken with
      acquisitions := Function.update taken.acquisitions turnId (taken.acquisitions turnId + 1) }
    else taken)

/-- `XADD`, which answers the id of the entry. -/
def append (turnId : Nat) (event : ChatEvent) : String × World :=
  let entries := world.streams turnId
  (s!"{world.now}-{entries.length}", { world with
    streams := Function.update world.streams turnId (entries ++ [event]) })

def consumeSteer (chatId : Nat) (codexTurnId : String) : Bool × World :=
  if world.steerNote chatId = some codexTurnId then
    (true, { world with steerNote := Function.update world.steerNote chatId none })
  else (false, world)

/-- What an operation answers and leaves behind when it succeeds. `self` is the thread that awaits
it and `lost` the event of that thread's heartbeat. -/
def perform (self : Nat) (lost : Bool) : (op : Op) → op.Val × World
  | .getTurn turnId => (world.turns turnId, world)
  | .getUser userId => (world.users userId, world)
  | .getActiveForChat chatId => (world.activeForChat chatId, world)
  | .findStaleActive threshold =>
      (world.rows.filter fun row => row.status.isActive ∧ row.heartbeatAt + threshold < world.now,
        world)
  | .markRunning turnId threadId codexTurnId =>
      world.updateTurn turnId fun row => row.markRunning threadId codexTurnId world.now
  | .updateLastEvent turnId eventId =>
      ((), (world.updateTurn turnId fun row => some (row.updateLastEvent eventId)).2)
  | .heartbeat turnId => world.updateTurn turnId fun row => row.heartbeat world.now
  | .finalizeOnce turnId status errorCode errorDetail =>
      world.updateTurn turnId fun row => row.finalizeOnce status errorCode errorDetail world.now
  | .persistPartial turnId draft emitJournal => world.persistPartial turnId draft emitJournal
  | .persistFinal turnId draft partialIds => world.persistFinal turnId draft partialIds
  | .refresh => ((), world)
  | .emitEvent turnId chatId kind => ((), world.emit turnId chatId kind)
  | .createTurn payload => world.createTurn self payload
  | .enqueue turnId =>
      ((), { world with
        enqueued := Function.update world.enqueued turnId true
        queue := Function.update world.queue turnId true })
  | .setActiveNx chatId turnId =>
      world.setActive (world.active.setNx chatId turnId (world.now + lockTtl) self)
  | .getActive chatId => ((world.active chatId).map StoreEntry.value, world)
  | .setActiveIfEq chatId turnId =>
      world.setActive (world.active.touchIfEq chatId turnId (world.now + lockTtl))
  | .delActiveIfEq chatId turnId => world.setActive (world.active.delIfEq chatId turnId)
  | .setLeaseNx turnId holder => world.acquireLease self turnId holder
  | .refreshLease turnId holder =>
      world.setLease (world.lease.touchIfEq turnId holder (world.now + lockTtl))
  | .releaseLease turnId holder => world.setLease (world.lease.delIfEq turnId holder)
  | .leaseExists turnId => ((world.lease turnId).isSome, world)
  | .addActiveLease turnId holder =>
      ((), { world with
        activeLeases := Function.update world.activeLeases holder
          (turnId :: (world.activeLeases holder).erase turnId) })
  | .discardActiveLease turnId holder =>
      ((), { world with
        activeLeases := Function.update world.activeLeases holder
          ((world.activeLeases holder).erase turnId) })
  | .activeLeases holder => (world.activeLeases holder, world)
  | .peekSteer turnId => (world.steerCount turnId, world)
  | .bumpSteer turnId =>
      ((), { world with
        steerCount := Function.update world.steerCount turnId (world.steerCount turnId + 1) })
  | .noteSteer chatId codexTurnId =>
      ((), { world with
        steerNote := Function.update world.steerNote chatId (some codexTurnId) })
  | .consumeSteer chatId codexTurnId => world.consumeSteer chatId codexTurnId
  | .xadd turnId event => world.append turnId event
  | .clock => (world.now, world)
  | .ownershipLost => (lost, world)
  | .expireStream _ | .external _ | .nextNote _ | .startHeartbeat .. | .stopHeartbeat => ((), world)

/-- A message about the lease is no longer under way. -/
def withoutNotice (turnId acquisition : Nat) : World :=
  { world with
    notices := Function.update world.notices turnId ((world.notices turnId).erase acquisition) }

/-- A second passes. Keys whose deadline has come are gone, the leases among them with a message. -/
def tick : World :=
  let later := { world with now := world.now + 1 }
  { later with
    active := later.active.expire later.now
    lease := later.lease.expire later.now
    notices := fun turnId =>
      if (later.lease turnId).any fun entry => entry.deadline ≤ later.now then
        later.notices turnId ++ [later.acquisitions turnId]
      else later.notices turnId }

end World
end CodexServer
