import CodexServer.ChatEvent
import CodexServer.TurnRow
import CodexServer.Library.EventLog

/-!
# The per-turn stream and its readers

`turn:{id}:events` is a log of frames. `tail` alternates blocking reads of it with reads of the turn
row, and the two RPC handlers put a terminal frame made from the row after what `tail` gives them.
Each of these is a machine with one step for each access to Redis or to the database and one for
each frame yielded, so that the worker may act between any two of them.
-/

namespace CodexServer

/-- `<ms>-<seq>`, ordered by the first part and then the second. -/
abbrev EntryId := Fin (2 ^ 64) ×ₗ Fin (2 ^ 64)

instance neZero_idParts : NeZero (2 ^ 64) := ⟨by decide⟩

-- Named, so that the readers branch on the computable order and begin at the computable bottom.
instance : LinearOrder EntryId :=
  @Prod.Lex.instLinearOrder (Fin (2 ^ 64)) (Fin (2 ^ 64)) Fin.instLinearOrder Fin.instLinearOrder

instance : OrderBot EntryId :=
  @Prod.Lex.orderBot (Fin (2 ^ 64)) (Fin (2 ^ 64)) _ _ Fin.instBoundedOrder.toOrderBot
    Fin.instBoundedOrder.toOrderBot

namespace EntryId

def digits (value : Fin (2 ^ 64)) : List Char := Nat.toDigits 10 value.val

def text (id : EntryId) : String :=
  String.ofList (digits (ofLex id).1 ++ '-' :: digits (ofLex id).2)

def parseDigits (chars : List Char) : Option (Fin (2 ^ 64)) :=
  if chars ≠ [] ∧ chars.all Char.isDigit then
    let value := Nat.ofDigitChars 10 chars 0
    if hvalue : value < 2 ^ 64 then some ⟨value, hvalue⟩ else none
  else none

/-- A whole id, or its first part alone. -/
def parse (cursor : String) : Option EntryId :=
  let ms := cursor.toList.takeWhile (· ≠ '-')
  match cursor.toList.dropWhile (· ≠ '-') with
  | [] => (parseDigits ms).map fun ms => toLex (ms, 0)
  | _ :: seq => (parseDigits ms).bind fun ms => (parseDigits seq).map fun seq => toLex (ms, seq)

end EntryId

abbrev TurnLog := EventLog EntryId ChatEvent

/-- Where a read begins. -/
inductive ReadBound
  | exclusive (id : EntryId)
  | inclusive (id : EntryId)

def ReadBound.after (log : TurnLog) : ReadBound → List (EntryId × ChatEvent)
  | exclusive id => log.after id
  | inclusive id => log.entries.filter fun entry => id ≤ entry.1

/-- How XREAD takes its id argument: `$` is the last id there is, `+` the last entry, and anything
that is not an id is an error reply. -/
def readBound (log : TurnLog) (cursor : String) : Option ReadBound :=
  let last := (log.entries.map Prod.fst).getLast?
  if cursor = "$" then some (.exclusive (last.getD ⊥))
  else if cursor = "+" then some (last.elim (.exclusive ⊥) .inclusive)
  else (EntryId.parse cursor).map .exclusive

/-! ### `TurnStream.tail` -/

inductive Tail
  /-- About to call XREAD. -/
  | reading (cursor : String)
  /-- Inside the blocking XREAD. -/
  | blocked (cursor : String) (bound : ReadBound)
  /-- XREAD gave nothing; about to read the turn row. -/
  | checking (cursor : String)
  /-- In the loop over the entries of one answer. -/
  | yielding (cursor : String) (entries : List (EntryId × ChatEvent))
  | returned
  | raised

namespace Tail

def start (afterEventId : String) : Tail :=
  reading (if afterEventId = "" then "0" else afterEventId)

/-- The frame `tail` makes of an entry. -/
def frame (entry : EntryId × ChatEvent) : ChatEvent := { entry.2 with eventId := entry.1.text }

/-- One step, and the frame it yields. `status` is the row's, `none` for a row that is gone. -/
def step (log : TurnLog) (status : Option TurnStatus) : Tail → Option (Tail × Option ChatEvent)
  | reading cursor =>
      match readBound log cursor with
      | some bound => some (blocked cursor bound, none)
      | none => some (raised, none)
  | blocked cursor bound =>
      match (bound.after log).take 64 with
      | [] => some (checking cursor, none)
      | entries => some (yielding cursor entries, none)
  | checking cursor =>
      if status.all TurnStatus.isTerminal then some (returned, none)
      else some (reading cursor, none)
  | yielding cursor [] => some (reading cursor, none)
  | yielding _ (entry :: rest) =>
      if (frame entry).isTerminal then some (returned, some (frame entry))
      else some (yielding entry.1.text rest, some (frame entry))
  | returned => none
  | raised => none

end Tail

/-! ### The handlers -/

/-- `_terminal_from_status` -/
def terminalFromStatus (messages : Nat → Option AssistantMessage) (turn : TurnRow) :
    Option ChatEvent :=
  match turn.status with
  | .completed =>
      match turn.assistantMessageId.bind messages with
      | some message => some ⟨.done turn.chatId message.text (some message) false, ""⟩
      | none => some ⟨.done turn.chatId "" none false, ""⟩
  | .failed =>
      let code := turn.errorCode.filter (· ≠ "")
      let detail := turn.errorDetail.filter (· ≠ "")
      some (errorEvent (code.getD CodexErrorCode.streamDropped) (some (detail.getD "failed")))
  | .cancelled =>
      let code := turn.errorCode.filter (· ≠ "")
      let detail := turn.errorDetail.filter (· ≠ "")
      some (errorEvent (code.getD "cancelled") (some (detail.getD "cancelled")))
  | .starting | .running => none

/-- The two RPCs that stream a turn. `run_turn` is taken up after its enqueue; `tail_turn` names the
turn, or its chat in the legacy form of the request. -/
inductive StreamRequest
  | runTurn
  | tailTurn (afterId : String)
  | tailChat (afterId : String)
deriving DecidableEq

inductive Handler
  | starting
  /-- `tail_turn`: about to read the turn it was asked for. -/
  | loading (afterId : String)
  /-- Legacy `tail_turn`: about to read the active turn of the chat. -/
  | loadingActive (afterId : String)
  /-- Legacy `tail_turn`: no turn is active; about to read the latest one. -/
  | loadingLatest
  | tailing (tail : Tail)
  /-- `tail` has ended; about to read the row once more. -/
  | refreshing
  | ended
  | raised

namespace Handler

def start : StreamRequest → Handler
  | .runTurn => starting
  | .tailTurn afterId => loading afterId
  | .tailChat afterId => loadingActive afterId

/-- One step against the row of the turn, and the frame it yields. -/
def step (log : TurnLog) (messages : Nat → Option AssistantMessage) (turn : TurnRow) :
    Handler → Option (Handler × Option ChatEvent)
  | starting => some (tailing (.start ""), some ⟨.turnStarted turn.id, ""⟩)
  | loading afterId =>
      if turn.status.isTerminal then some (ended, terminalFromStatus messages turn)
      else some (tailing (.start afterId), none)
  | loadingActive afterId =>
      if turn.status.isActive then some (tailing (.start afterId), none)
      else some (loadingLatest, none)
  | loadingLatest => some (ended, terminalFromStatus messages turn)
  | tailing .returned => some (refreshing, none)
  | tailing .raised => some (raised, none)
  | tailing tail =>
      (tail.step log (some turn.status)).map fun (tail, event) => (tailing tail, event)
  | refreshing => some (ended, terminalFromStatus messages turn)
  | ended => none
  | raised => none

end Handler

/-! ### The worker, the stream and one reader -/

/-- The worker has a list of frames to publish and then commits the outcome of the turn. -/
structure StreamWorld where
  log : TurnLog
  messages : Nat → Option AssistantMessage
  turn : TurnRow
  pending : List ChatEvent
  outcome : TerminalStatus × Option String × Option String

namespace StreamWorld

variable (world : StreamWorld)

def publish (id : EntryId) : Option StreamWorld :=
  match world.pending with
  | event :: rest =>
      if hid : world.log.Admits id then
        some { world with log := world.log.append id event hid, pending := rest }
      else none
  | [] => none

/-- `finalize_once` and its commit, when everything is published. -/
def finalize (now : Nat) : Option StreamWorld :=
  if world.pending = [] then
    (world.turn.finalizeOnce world.outcome.1 world.outcome.2.1 world.outcome.2.2 now).map
      fun turn => { world with turn := turn }
  else none

end StreamWorld

/-- The world with one reader of it, `tail` alone or a whole handler, and what it has yielded. -/
structure StreamSystem (Reader : Type) where
  world : StreamWorld
  reader : Reader
  yields : List ChatEvent

namespace StreamSystem

inductive Action
  /-- The worker's next XADD, and the id Redis gives the entry. -/
  | publish (id : EntryId)
  | finalize (now : Nat)
  | read

variable {Reader : Type} (read : StreamWorld → Reader → Option (Reader × Option ChatEvent))

def step (system : StreamSystem Reader) : Action → Option (StreamSystem Reader)
  | .publish id => (system.world.publish id).map fun world => { system with world := world }
  | .finalize now => (system.world.finalize now).map fun world => { system with world := world }
  | .read => (read system.world system.reader).map fun (reader, event) =>
      { system with reader := reader, yields := system.yields ++ event.toList }

/-- The steps of a bare `tail`. -/
def tailStep : StreamSystem Tail → Action → Option (StreamSystem Tail) :=
  step fun world tail => tail.step world.log (some world.turn.status)

/-- The steps of an RPC handler. -/
def handlerStep : StreamSystem Handler → Action → Option (StreamSystem Handler) :=
  step fun world handler => handler.step world.log world.messages world.turn

end StreamSystem
end CodexServer
