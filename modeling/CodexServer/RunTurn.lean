import CodexServer.Control
import CodexServer.RateLimit
import CodexServer.Library.ProgramRun

/-!
# The `run_turn` RPC

The whole of the handler: it reserves a slot of the user, prepares the request, sees to the active
turn of the chat, creates and enqueues its own, and follows the stream. The client may be gone at any
of its yields. Whoever is left with the turn gives the slot back.
-/

namespace CodexServer

namespace CodexErrorCode

def emptyText : String := "empty_text"

def rateLimited : String := "rate_limited"

end CodexErrorCode

/-- `UserKind` as a string -/
def RateLimit.UserKind.value : RateLimit.UserKind → String
  | admin => "admin"
  | webUser => "web_user"
  | tgGuest => "tg_guest"

/-- `str(exc)` -/
def RateLimit.RateLimited.text (limited : RateLimit.RateLimited) : String :=
  limited.scope ++ " limit reached: " ++ toString limited.limit ++ " (user-kind=" ++
    limited.kind.value ++ ")"

namespace ChatRPC

open RateLimit (UserKind RateLimited)

/-- What the handler awaits. A yield is answered by the client's next request, or by the exception
with which the generator is closed. -/
inductive RequestOp
  | reserveTurn (kind : UserKind)
  /-- `_prepare_run_turn`: the ownership of the chat, and the uploads. -/
  | prepareRunTurn
  | control (op : Op)
  | yieldEvent (event : ChatEvent)
  /-- The next event of `turn_stream.tail`. -/
  | tail (turnId : Nat)
  | terminalForTurnId (turnId : Nat)
  /-- `release_turn`: DECR of the active counter, and DELETE when nothing is left. -/
  | decrActive
  | deleteActive

abbrev RequestOp.Val : RequestOp → Type
  | reserveTurn _ => Except RateLimited Unit
  | prepareRunTurn => PreparedRunTurn
  | control op => op.Val
  | yieldEvent _ | tail _ | deleteActive => Unit
  | decrActive => Int
  | terminalForTurnId _ => Option ChatEvent

/-- `worker_owns_rate_limit` -/
structure RequestLocals where
  workerOwnsRateLimit : Bool := false

abbrev RequestCode (α : Type) := Async RequestOp RequestOp.Val Fault Exn Empty RequestLocals α

abbrev RequestMove := Program.Move RequestOp RequestOp.Val Fault Empty

def await (op : RequestOp) : RequestCode op.Val := Async.await Exn.fault op

/-- The awaits of control code, as awaits of the handler. -/
def embed {α : Type} : Program Op Op.Val Fault Empty α →
    Program RequestOp RequestOp.Val Fault Empty α
  | .ret value => .ret value
  | .call op next => .call (.control op) fun answer => embed (next answer)
  | .emit out _ => nomatch out

def control {α : Type} (code : ControlCode α) : RequestCode α := fun locals =>
  (embed (code ())).bind fun (outcome, _) => .ret (outcome, locals)

/-- The request, and what the stream of its turn will give before it ends. -/
structure RunTurnRequest where
  text : String
  uploadIds : List Nat
  events : List ChatEvent

section

variable (kind : UserKind) (request : RunTurnRequest)

def yieldEvent (event : ChatEvent) : RequestCode Unit := await (.yieldEvent event)

/-- `async for event in turn_stream.tail(turn.id, "")` -/
def forwardTail (turnId : Nat) : List ChatEvent → RequestCode Unit
  | [] => await (.tail turnId)
  | event :: rest => do
      await (.tail turnId)
      yieldEvent event
      forwardTail turnId rest

def yieldTerminal (turnId : Nat) : RequestCode Unit := do
  match ← await (.terminalForTurnId turnId) with
  | some event => yieldEvent event
  | none => pure ()

/-- After the enqueue. -/
def followTurn (turn : TurnRow) : RequestCode Unit := do
  Async.modifyLocal fun locals => { locals with workerOwnsRateLimit := true }
  yieldEvent ⟨.turnStarted turn.id, ""⟩
  forwardTail turn.id request.events
  yieldTerminal turn.id

/-- The body of the `try`. -/
def admitted : RequestCode Unit := do
  let prepared ← await .prepareRunTurn
  match ← control (Handler.handleActiveTurn prepared) with
  | some event => yieldEvent event
  | none =>
      match ← control (Handler.createWebTurn prepared) with
      | .error event => yieldEvent event
      | .ok turn =>
          match ← control (Handler.enqueueTurn turn) with
          | some event => yieldEvent event
          | none => followTurn request turn

def releaseTurn : RequestCode Unit :=
  if kind = .admin then pure ()
  else do
    let remaining ← await .decrActive
    if remaining ≤ 0 then await .deleteActive else pure ()

def releaseOwned : RequestCode Unit := do
  let locals ← Async.getLocal
  if locals.workerOwnsRateLimit then pure () else releaseTurn kind

/-- `run_turn`, for the user that `require_user` has returned. -/
def runTurn : RequestCode Unit :=
  if request.text = "" ∧ request.uploadIds = [] then
    yieldEvent (errorEvent CodexErrorCode.emptyText (some "text is required"))
  else do
    match ← await (.reserveTurn kind) with
    | .error limited => yieldEvent (errorEvent CodexErrorCode.rateLimited (some limited.text))
    | .ok () => Async.tryFinally (admitted request) (releaseOwned kind)

end
end ChatRPC
end CodexServer
