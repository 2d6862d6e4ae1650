import Mathlib.Logic.Function.Basic
import CodexServer.Notification
import CodexServer.Library.BoundedQueue
import CodexServer.Library.Transition

/-!
# The JSON-RPC client

`AppServerClient` shares one socket. Its reader sorts the frames that come in: responses complete the
futures of the requests that wait for them, notifications go into a bounded queue, and each request
of the server is served by a task of its own. The steps of the client are what happens between two
awaits.
-/

namespace CodexServer

namespace Json

def isNull : Json → Bool
  | null => true
  | _ => false

/-- `key in value` -/
def contains (key : String) : Json → Except PyError Bool
  | object fields => .ok (fields.lookup key).isSome
  | array items => .ok (items.any fun item => item.string? = some key)
  | string value => .ok (value.toList.tails.any key.toList.isPrefixOf)
  | null | bool _ | number _ => .error .typeError

/-- `hash(value)` does not raise. -/
def hashable : Json → Bool
  | array _ | object _ => false
  | _ => true

end Json

namespace Transport

/-! ### Messages -/

inductive Frame
  | text (content : String)
  | binary (content : ByteArray)

/-- `raw if isinstance(raw, str) else raw.decode("utf-8")` -/
def Frame.decode : Frame → Option String
  | text content => some content
  | binary content => String.fromUTF8? content

/-- What leaves the loop of the reader. -/
inductive ReaderError
  | unicodeDecodeError
  | raised (error : PyError)
deriving DecidableEq

structure AppServerError where
  code : Json
  message : Json
  data : Json

inductive Answer
  | result (value : Json)
  | error (error : AppServerError)

/-- `AppServerError(err.get("code", -1), err.get("message", ""), err.get("data"))` -/
def AppServerError.ofJson (err : Json) : Except PyError AppServerError := do
  return {
    code := (← err.get "code").getD (.number (-1))
    message := (← err.get "message").getD (.string "")
    data := (← err.get "data").getD .null }

/-- The answer of a response. -/
def Answer.ofMessage (message : Json) : Except PyError Answer := do
  if ← message.contains "error" then
    return .error (← AppServerError.ofJson (← message.index "error"))
  else return .result ((← message.get "result").getD .null)

/-- `Value` is what a handler returns. -/
inductive Body (Value : Type)
  | result (value : Value)
  | error (code : Int) (message : String)

structure Response (Value : Type) where
  id : Json
  body : Body Value

def methodNotFound : Int := -32601

def internalError : Int := -32603

/-- orjson and `str` from outside, and the methods that have a handler. -/
structure Env (Value : Type) where
  /-- `orjson.loads`, `none` for `JSONDecodeError`. -/
  loads : String → Option Json
  /-- `orjson.dumps` of a response, `none` when it raises. -/
  dumps : Response Value → Option String
  str : Json → String
  handlers : String → Bool

/-! ### Well-formed frames -/

section

variable {Value : Type} (env : Env Value)

/-- The value of `id`, when it is one. -/
def idOf (fields : List (String × Json)) : Option Json :=
  (fields.lookup "id").filter fun id => !id.isNull

/-- A request has an id and a method; it is served in a task of its own whatever they are. A
response has the number of a request, and its error is an object. The method of a notification is a
string. -/
def wellFormedMessage : Json → Bool
  | .object fields =>
      match idOf fields, fields.lookup "method" with
      | some _, some _ => true
      | some (.number id), none =>
          id.isInt && 0 ≤ id.num && (fields.lookup "error").all fun error => error.object?.isSome
      | some _, none => false
      | none, some method => method.string?.isSome
      | none, none => false
  | _ => false

def message? (raw : Frame) : Option Json := raw.decode.bind env.loads

def wellFormed (raw : Frame) : Bool := (message? env raw).any wellFormedMessage

/-- The call a well-formed response is for, and what it says. -/
def response? (raw : Frame) : Option (Nat × Answer) :=
  match (message? env raw).filter wellFormedMessage with
  | some (.object fields) =>
      match idOf fields, fields.lookup "method", (Answer.ofMessage (.object fields)).toOption with
      | some (.number id), none, some answer => some (id.num.toNat, answer)
      | _, _, _ => none
  | _ => none

/-- The notification that a frame puts into the queue. -/
def notification? (raw : Frame) : Option Notification :=
  match message? env raw with
  | some (.object fields) =>
      match idOf fields, (fields.lookup "method").bind Json.string? with
      | none, some method => some (Notification.ofFrame method (fields.lookup "params"))
      | _, _ => none
  | _ => none

end

/-! ### Requests of the client -/

inductive RpcFuture
  | pending
  | answered (answer : Answer)
  | connectionError (text : String)
  | cancelled

def RpcFuture.isPending : RpcFuture → Bool
  | pending => true
  | _ => false

inductive Outcome
  | answered (answer : Answer)
  | connectionError (text : String)
  | sendError
  | timeout
  | cancelled

inductive CallPhase
  /-- In `_send`. -/
  | sending
  /-- At `await future`. -/
  | waiting
  | ended (outcome : Outcome)

/-- A call of `request` that has got its id. -/
structure Call where
  phase : CallPhase := .sending
  future : RpcFuture := .pending

/-- `set_result` or `set_exception`, unless the future is done. -/
def Call.settle (future : RpcFuture) (call : Call) : Call :=
  if call.future.isPending then { call with future := future } else call

/-- What `await future` gives once the future is done. -/
def RpcFuture.outcome? : RpcFuture → Option Outcome
  | pending => none
  | answered answer => some (.answered answer)
  | connectionError text => some (.connectionError text)
  | cancelled => some .cancelled

def CallPhase.outcome? : CallPhase → Option Outcome
  | ended outcome => some outcome
  | _ => none

def CallPhase.isSending : CallPhase → Bool
  | sending => true
  | _ => false

def CallPhase.isWaiting : CallPhase → Bool
  | waiting => true
  | _ => false

/-! ### Requests of the server -/

inductive TaskPhase (Value : Type)
  | spawned
  | handling
  /-- In `_send_response`. -/
  | responding (response : Response Value)
  | ended

/-- A task of `_handle_request`. -/
structure RequestTask (Value : Type) where
  id : Json
  method : Json
  params : List (String × Json)
  phase : TaskPhase Value := .spawned
  /-- The socket has been open all the time. -/
  socketOpen : Bool := true
  sent : List (Response Value) := []

/-! ### The client -/

structure AppServerClient (Value : Type) where
  /-- `notification_queue_max` -/
  queueMax : Nat
  nextId : Nat := 1
  /-- `_pending`; an id stands for the future of its call. -/
  pending : List Nat := []
  calls : Nat → Option Call := fun _ => none
  /-- What the first response frame says that has borne the id of a call since it has got it. -/
  firstAnswers : Nat → Option Answer := fun _ => none
  /-- `_notifications`, where `none` is the sentinel. -/
  notifications : List (Option Notification) := []
  tasks : List (RequestTask Value) := []
  connected : Bool := false
  explicitClose : Bool := false
  /-- `close()` is through. -/
  closed : Bool := false
  /-- The reader was ended by a frame. -/
  crashed : Bool := false
  /-- The connection was lost, or closed, after the last `connect`. -/
  disconnected : Bool := false
  /-- What the queue has been through, and what the consumer has got from it. -/
  queueEvents : List (BoundedQueue.Event (Option Notification)) := []
  received : List (Option Notification) := []

namespace AppServerClient

variable {Value : Type} (env : Env Value) (client : AppServerClient Value)

def setCall (id : Nat) (call : Call) : AppServerClient Value :=
  { client with calls := Function.update client.calls id (some call) }

def modifyTask (index : Nat) (change : RequestTask Value → RequestTask Value) :
    AppServerClient Value :=
  { client with tasks := client.tasks.modify index change }

/-- `_enqueue_notification`, once the notification is there: there is a warning when the queue is
full. -/
def putNotification (note : Notification) : AppServerClient Value :=
  { client with
    notifications := (BoundedQueue.put? client.queueMax client.notifications (some note)).getD
      client.notifications
    queueEvents := client.queueEvents ++ [.put (some note)] }

/-- `_enqueue_notification`. A method that is no string is refused by `Notification`. -/
def enqueueNotification (message : Json) : Except PyError (AppServerClient Value) := do
  let params ← message.get "params"
  let method ← (← message.index "method").asString
  return client.putNotification (Notification.ofFrame method params)

/-- `_wake_notifications` -/
def wakeNotifications : AppServerClient Value :=
  { client with
    notifications :=
      match BoundedQueue.put? client.queueMax client.notifications none with
      | some queue => queue
      | none =>
          let rest := client.notifications.tail
          (BoundedQueue.put? client.queueMax rest none).getD rest
    queueEvents := client.queueEvents ++ [.put none] }

/-- `_pending.get(req_id)`. For Python `True` is the key `1`. -/
def pendingId? : Json → Except PyError (Option Nat)
  | .array _ | .object _ => .error .typeError
  | .number value => .ok (client.pending.find? fun id => (id : ℚ) = value)
  | .bool value => .ok (client.pending.find? fun id => id = value.toNat)
  | .null | .string _ => .ok none

/-- `_resolve_response` -/
def resolveResponse (message : Json) : Except PyError (AppServerClient Value) := do
  match ← client.pendingId? (← message.index "id") with
  | none => return client
  | some id =>
      match client.calls id with
      | none => return client
      | some call =>
          if call.future.isPending then
            let answer ← Answer.ofMessage message
            return client.setCall id { call with future := .answered answer }
          else return client

/-- `_spawn_request_handler` -/
def spawnRequestHandler (message : Json) : Except PyError (AppServerClient Value) := do
  let id ← message.index "id"
  let method ← message.index "method"
  let params := ((← message.get "params").bind Json.object?).getD []
  return { client with tasks := client.tasks ++ [{ id, method, params }] }

def hasId (message : Json) : Except PyError Bool := do
  if ← message.contains "id" then return !(← message.index "id").isNull else return false

/-- `_dispatch`, for a frame that is JSON. -/
def dispatch (message : Json) : Except PyError (AppServerClient Value) := do
  let hasId ← hasId message
  let hasMethod ← message.contains "method"
  if hasId && hasMethod then client.spawnRequestHandler message
  else if hasId then client.resolveResponse message
  else if hasMethod then client.enqueueNotification message
  else
    -- The keys are logged, and only an object has some.
    match message with
    | .object _ => return client
    | _ => throw .attributeError

/-- The body of the loop of `_read_loop`. -/
def receive (raw : Frame) : Except ReaderError (AppServerClient Value) :=
  match raw.decode with
  | none => .error .unicodeDecodeError
  | some text =>
      match env.loads text with
      | none => .ok client
      | some message => (client.dispatch message).mapError .raised

/-- The first response to a call is remembered. -/
def noteResponse (raw : Frame) : AppServerClient Value :=
  match response? env raw with
  | some (id, answer) =>
      if (client.calls id).isSome && (client.firstAnswers id).isNone then
        { client with firstAnswers := Function.update client.firstAnswers id (some answer) }
      else client
  | none => client

/-- `_fail_pending` -/
def failPending (text : String) : AppServerClient Value :=
  { client with
    calls := fun id =>
      if id ∈ client.pending then (client.calls id).map (Call.settle (.connectionError text))
      else client.calls id
    pending := [] }

/-- The socket is lost to the tasks that are not through. -/
def dropSocket : AppServerClient Value :=
  { client with
    connected := false
    disconnected := true
    tasks := client.tasks.map fun task =>
      match task.phase with
      | .ended => task
      | _ => { task with socketOpen := false } }

/-- The `finally` clause of `_read_loop`. -/
def readerEnds : AppServerClient Value :=
  client.dropSocket.wakeNotifications.failPending "AppServerClient connection lost"

/-- The end of `close`. -/
def finishClose : AppServerClient Value :=
  { client.dropSocket.wakeNotifications.failPending "AppServerClient closed" with closed := true }

/-- `request`, up to the await of `_send`. -/
def register : AppServerClient Value :=
  { client.setCall client.nextId {} with
    nextId := client.nextId + 1, pending := client.pending ++ [client.nextId] }

/-- `request` is left: the `finally` clause takes its entry away. -/
def leave (id : Nat) (call : Call) (outcome : Outcome) : AppServerClient Value :=
  { client.setCall id { call with phase := .ended outcome } with
    pending := client.pending.filter (· ≠ id) }

/-- `_handle_request`, up to the await of the handler. -/
def serve (task : RequestTask Value) : RequestTask Value :=
  if !task.method.hashable then { task with phase := .ended }
  else if task.method.string?.any env.handlers then { task with phase := .handling }
  else
    { task with
      phase := .responding ⟨task.id,
        .error methodNotFound ("method not supported: " ++ env.str task.method)⟩ }

/-- `_send_response`, which logs what is raised in it. -/
def respond (connected : Bool) (response : Response Value) (task : RequestTask Value) :
    RequestTask Value :=
  if connected && (env.dumps response).isSome then
    { task with phase := .ended, sent := task.sent ++ [response] }
  else { task with phase := .ended }

end AppServerClient

/-! ### The steps -/

inductive Action (Value : Type)
  | connect
  | request
  /-- `_send` returns. -/
  | sent (id : Nat)
  /-- `_send` raises, or is cancelled. -/
  | sendFails (id : Nat) (cancelled : Bool)
  /-- The future is done. -/
  | resume (id : Nat)
  | timeOut (id : Nat)
  | cancel (id : Nat)
  | frame (raw : Frame)
  /-- `notifications()` gets an entry. -/
  | take
  | lose
  | beginClose
  | finishClose
  | serve (index : Nat)
  | handlerReturns (index : Nat) (value : Value)
  | handlerRaises (index : Nat) (text : String)
  | respond (index : Nat)
  /-- `ws.send` of a response raises: the socket is not open any more. -/
  | respondFails (index : Nat)
  /-- By the teardown. -/
  | cancelTask (index : Nat)

section

variable {Value : Type} (env : Env Value)

open AppServerClient in
def step (client : AppServerClient Value) : Action Value → Option (AppServerClient Value)
  | .connect =>
      if client.explicitClose || client.connected then none
      else some { client with connected := true, disconnected := false }
  | .request =>
      if client.explicitClose || !client.connected then some client else some client.register
  | .sent id => do
      let call ← client.calls id
      if call.phase.isSending then some (client.setCall id { call with phase := .waiting })
      else none
  | .sendFails id cancelled => do
      let call ← client.calls id
      if call.phase.isSending then
        -- The `try` of `request` begins after `_send`.
        some (client.setCall id { call with
          phase := .ended (if cancelled then .cancelled else .sendError) })
      else none
  | .resume id => do
      let call ← client.calls id
      let outcome ← call.future.outcome?
      if call.phase.isWaiting then some (client.leave id call outcome) else none
  | .timeOut id => do
      let call ← client.calls id
      if call.phase.isWaiting then some (client.leave id (call.settle .cancelled) .timeout)
      else none
  | .cancel id => do
      let call ← client.calls id
      if call.phase.isWaiting then some (client.leave id (call.settle .cancelled) .cancelled)
      else none
  | .frame raw =>
      if client.connected && !client.explicitClose then
        let client := client.noteResponse env raw
        match client.receive env raw with
        | .ok client => some client
        | .error _ => some { client.readerEnds with crashed := true }
      else none
  | .take =>
      match client.notifications with
      | [] => none
      | entry :: rest =>
          some { client with
            notifications := rest
            queueEvents := client.queueEvents ++ [.take]
            received := client.received ++ [entry] }
  | .lose => if client.connected then some client.readerEnds else none
  | .beginClose =>
      if client.explicitClose then none
      else some { client with explicitClose := true }
  | .finishClose =>
      if client.explicitClose && !client.closed then some client.finishClose else none
  | .serve index => do
      let task ← client.tasks[index]?
      match task.phase with
      | .spawned => some (client.modifyTask index (AppServerClient.serve env))
      | _ => none
  | .handlerReturns index value => do
      let task ← client.tasks[index]?
      match task.phase with
      | .handling => some (client.modifyTask index fun task =>
          { task with phase := .responding ⟨task.id, .result value⟩ })
      | _ => none
  | .handlerRaises index text => do
      let task ← client.tasks[index]?
      match task.phase with
      | .handling => some (client.modifyTask index fun task =>
          { task with phase := .responding ⟨task.id, .error internalError text⟩ })
      | _ => none
  | .respond index => do
      let task ← client.tasks[index]?
      match task.phase with
      | .responding response =>
          some (client.modifyTask index (AppServerClient.respond env client.connected response))
      | _ => none
  | .respondFails index => do
      let task ← client.tasks[index]?
      match task.phase with
      | .responding _ => some (client.modifyTask index fun task =>
          { task with phase := .ended, socketOpen := false })
      | _ => none
  | .cancelTask index => do
      let task ← client.tasks[index]?
      match task.phase with
      | .ended => none
      | _ =>
          if client.explicitClose then
            some (client.modifyTask index fun task =>
              { task with phase := .ended, socketOpen := false })
          else none

end

def start {Value : Type} (queueMax : Nat) : AppServerClient Value := { queueMax }

end Transport
end CodexServer
