import CodexServer.Telegram

/-!
# Opening a turn

`open_codex_turn` and the start of `run_turn`: the thread is resumed or started, a fresh one gets
the recent messages of the chat, and `turn/start` is tried once more on a new thread when the
sidecar does not know the first. Every request to the sidecar is on record.
-/

namespace CodexServer.Seeding

/-! ### The messages of a chat -/

inductive MessageRole
  | user
  | assistant
  | system
  | tool
deriving DecidableEq

structure Message where
  id : Nat
  role : MessageRole
  text : String
deriving DecidableEq

/-- `_REPLAYABLE` -/
def MessageRole.isReplayable : MessageRole → Bool
  | user | assistant => true
  | system | tool => false

/-- The message makes an item. -/
def Message.isReplayable (message : Message) : Bool :=
  message.role.isReplayable && !Telegram.isBlank message.text

/-- A Responses API item, and the message it is made of. -/
structure HistoryItem where
  role : MessageRole
  text : String
  messageId : Nat
deriving DecidableEq

def Message.historyItem (message : Message) : HistoryItem :=
  ⟨message.role, Telegram.strip message.text, message.id⟩

def messagesToHistoryItems (messages : List Message) : List HistoryItem :=
  (messages.filter Message.isReplayable).map Message.historyItem

/-- The messages of a chat, by their ids. -/
structure History where
  messages : List Message
  sorted : messages.Pairwise fun message later => message.id < later.id

def historyReplayLimit : Nat := 20

/-- `list_recent` -/
def History.recent (history : History) : List Message :=
  history.messages.drop (history.messages.length - historyReplayLimit)

/-- `recent[:-1]` when the last message is of the user. -/
def withoutLastUser (recent : List Message) : List Message :=
  match recent.getLast? with
  | some last => if last.role = .user then recent.dropLast else recent
  | none => recent

/-! ### The sidecar -/

structure AppServerError where
  code : Int
  /-- `str(exc)` -/
  text : String
deriving DecidableEq

/-- `needle in text` -/
def contains (text needle : String) : Bool :=
  text.toList.tails.any fun rest => needle.toList.isPrefixOf rest

def isThreadNotFound (error : AppServerError) : Bool :=
  error.code = -32600 && contains error.text.toLower "thread not found"

/-- What a request comes to; anything but an `AppServerError` goes up. -/
inductive Answer (α : Type)
  | ok (result : α)
  | error (error : AppServerError)
  | raised
deriving DecidableEq

/-- `result["thread"]["id"]`, which nothing checks: a string, `None`, or another value with its JSON
text and its truth. -/
inductive ThreadId
  | null
  | text (name : String)
  | other (json : String) (truthy : Bool)
deriving DecidableEq

/-- `bool(thread_id)` -/
def ThreadId.truthy : ThreadId → Bool
  | null => false
  | text name => name ≠ ""
  | other _ truthy => truthy

/-- A thread id of the chats table. -/
def ThreadId.ofStored (stored : Option String) : ThreadId := stored.elim null text

/-- What the sidecar says to each request that may be made. A `thread/start` whose result is no object
with a `thread` with an `id` has none. -/
structure Answers where
  resume : Answer Unit
  start : Answer (Option ThreadId)
  inject : Answer Unit
  /-- To the `thread/start` that comes after one with the id `None`. -/
  startUnnamed : Answer (Option ThreadId)
  turnStart : Answer Unit
  startAgain : Answer (Option ThreadId)
  turnStartAgain : Answer Unit

inductive Sent
  | resume (threadId : ThreadId)
  /-- With the id of the thread, if it was started. -/
  | start (threadId : Option ThreadId)
  | injectItems (threadId : ThreadId) (items : List HistoryItem)
  | turnStart (threadId : ThreadId)
deriving DecidableEq

/-! ### The client -/

/-- `CodexThreadSession`, and what it has sent. -/
structure Client where
  threadId : ThreadId
  resumedOrStarted : Bool := false
  /-- The calls of `on_thread_change`. -/
  changes : List ThreadId := []
  sent : List Sent := []

inductive Failure
  | appServerError (error : AppServerError)
  | other
deriving DecidableEq

abbrev ClientM (α : Type) := ExceptT Failure (StateM Client) α

def record (sent : Sent) : ClientM Unit :=
  modify fun client => { client with sent := client.sent ++ [sent] }

/-- `transport.request` -/
def request {α : Type} (sent : Sent) (answer : Answer α) : ClientM α := do
  record sent
  match answer with
  | .ok result => pure result
  | .error error => throw (.appServerError error)
  | .raised => throw .other

/-- `try … except AppServerError` -/
def catching {α : Type} (body : ClientM α) (handler : AppServerError → ClientM α) : ClientM α :=
  tryCatch body fun failure => match failure with
    | .appServerError error => handler error
    | .other => throw .other

/-- `_emit_thread_change`; what the callback raises is logged. -/
def emitThreadChange (threadId : ThreadId) : ClientM Unit :=
  modify fun client => { client with changes := client.changes ++ [threadId] }

def resetThread : ClientM Unit := do
  modify fun client => { client with threadId := .null, resumedOrStarted := false }
  emitThreadChange .null

def tryResume (threadId : ThreadId) (answer : Answer Unit) : ClientM Bool :=
  catching
    (do
      request (.resume threadId) answer
      pure true)
    fun error =>
      if isThreadNotFound error || error.code = -32601 then pure false
      else throw (.appServerError error)

def openNewThread (answer : Answer (Option ThreadId)) : ClientM ThreadId := do
  let started := match answer with
    | .ok threadId => threadId
    | _ => none
  match ← request (.start started) answer with
  | some threadId =>
      modify fun client => { client with threadId := threadId, resumedOrStarted := true }
      emitThreadChange threadId
      pure threadId
  | none => throw .other

def ensureThread (resume : Answer Unit) (start : Answer (Option ThreadId)) : ClientM ThreadId := do
  let threadId := (← get).threadId
  if threadId = .null then openNewThread start
  else if (← get).resumedOrStarted then pure threadId
  else if ← tryResume threadId resume then
    modify fun client => { client with resumedOrStarted := true }
    pure threadId
  else
    resetThread
    openNewThread start

def injectHistory (items : List HistoryItem) (answer : Answer Unit) : ClientM Unit := do
  let threadId := (← get).threadId
  if !threadId.truthy || items.isEmpty then pure ()
  else catching (request (.injectItems threadId items) answer) fun _ => pure ()

def seedHistory (history : History) (answer : Answer Unit) : ClientM Unit := do
  let items := messagesToHistoryItems (withoutLastUser history.recent)
  if items.isEmpty then pure () else injectHistory items answer

/-- `turn/start`, and the `AppServerError` that became an `ErrorEvent`. -/
def requestTurnStart (threadId : ThreadId) (answer : Answer Unit) :
    ClientM (Option AppServerError) :=
  catching
    (do
      request (.turnStart threadId) answer
      pure none)
    fun error => pure (some error)

/-- `_begin_turn_with_retry`: none when the turn has started. -/
def beginTurnWithRetry (answers : Answers) : ClientM (Option AppServerError) := do
  let threadId ← ensureThread answers.resume answers.startUnnamed
  match ← requestTurnStart threadId answers.turnStart with
  | none => pure none
  | some error =>
      if isThreadNotFound error then
        resetThread
        let threadId ← ensureThread answers.resume answers.startAgain
        requestTurnStart threadId answers.turnStartAgain
      else pure (some error)

/-- What a turn is opened with: the chat as it is stored, and what the sidecar will say. -/
structure Opening where
  storedThreadId : Option String
  threadReuseEnabled : Bool
  quarantined : String → Bool
  history : History
  /-- The row of this turn's own message. -/
  ownMessageId : Nat
  own_is_user : ∀ message ∈ history.messages, message.id = ownMessageId → message.role = .user
  answers : Answers

namespace Opening

variable (opening : Opening)

/-- The thread to resume. -/
def initial : Option String :=
  if opening.threadReuseEnabled then
    opening.storedThreadId.filter fun threadId => !opening.quarantined threadId
  else none

/-- The body of `open_codex_turn` up to its `yield`. -/
def openCodexTurn (seedHistory : Bool) : ClientM Unit := do
  if seedHistory then
    let _ ← ensureThread opening.answers.resume opening.answers.start
    if (← get).threadId ≠ .ofStored opening.storedThreadId then
      Seeding.seedHistory opening.history opening.answers.inject

/-- A turn, up to its first event. Only the usage command opens a client without seeding, and it
runs no turn. -/
def body : ClientM (Option AppServerError) := do
  opening.openCodexTurn true
  beginTurnWithRetry opening.answers

/-- The requests it comes to. -/
def sent : List Sent :=
  (opening.body.run.run { threadId := .ofStored opening.initial }).2.sent

end Opening
end CodexServer.Seeding
