import CodexServer.Interface
import CodexServer.Translate
import CodexServer.Library.Transition

/-!
# A turn in the Codex client

`CodexTurnSession.run_turn`, from the answer to `turn/start` on. It takes notifications from the
queue of the transport, drops those that are not for it, and translates the others. While it waits
the idle deadline may come: the wait is then cancelled inside `notifications()`, a generator that is
over once an exception has left it.
-/

namespace CodexServer.CodexTurn

structure Options where
  turnId : String
  idleS : Option ℚ
  hasOnIdle : Bool
  hasRateLimits : Bool
  hardCapS : ℚ
  probeIntervalS : ℚ
  stormThreshold : Nat
  python : Python

/-! ### Diagnostics -/

/-- `item_label` -/
def itemLabel (item : List (String × Json)) : Option String :=
  let named := ["toolName", "tool", "name"].findSome? fun key =>
    ((item.lookup key).bind Json.string?).filter (· ≠ "")
  match named with
  | some label => some label
  | none =>
      ((item.lookup "type").bind Json.string?).map fun
        | "commandExecution" => "shell"
        | "fileChange" => "file_change"
        | "webSearch" => "web_search"
        | "imageGeneration" => "image_generation"
        | "imageView" => "image_view"
        | itemType => itemType

/-- `item_key` -/
def itemKey (python : Python) (item : List (String × Json)) : String :=
  let named := ["id", "callId", "toolCallId"].findSome? fun key =>
    ((item.lookup key).bind Json.string?).filter (· ≠ "")
  named.getD (python.str ((item.lookup "type").getD .null) ++ ":" ++ (itemLabel item).getD "None")

/-- The parts of `TurnDiagnostics` that decide something. -/
structure Diagnostics where
  rawCount : Nat := 0
  staleRawCount : Nat := 0
  activeItems : List String := []

def Diagnostics.absorbRaw (python : Python) (note : Notification) (diagnostics : Diagnostics) :
    Diagnostics :=
  let counted := { diagnostics with rawCount := diagnostics.rawCount + 1 }
  match (note.params.lookup "item").bind Json.object? with
  | none => counted
  | some item =>
      let key := itemKey python item
      if note.method = CodexNotif.itemStarted then
        { counted with activeItems := counted.activeItems.erase key ++ [key] }
      else if note.method = CodexNotif.itemCompleted then
        { counted with activeItems := counted.activeItems.erase key }
      else counted

def Diagnostics.absorbStaleRaw (diagnostics : Diagnostics) : Diagnostics :=
  { diagnostics with staleRawCount := diagnostics.staleRawCount + 1 }

/-! ### The idle decision -/

inductive IdleDecision
  | hardCapExceeded
  | needsProbe
  | extendSilently
deriving DecidableEq

/-- `decide_idle` -/
def decideIdle (now turnStartedAt : ℚ) (hasActiveItems : Bool) (lastIdleProbeAt : Option ℚ)
    (hardCapS probeIntervalS : ℚ) : IdleDecision :=
  if hardCapS ≤ now - turnStartedAt then .hardCapExceeded
  else if !hasActiveItems then .needsProbe
  else
    match lastIdleProbeAt with
    | none => .needsProbe
    | some probedAt => if probeIntervalS ≤ now - probedAt then .needsProbe else .extendSilently

/-! ### The state of a turn -/

inductive Exit
  /-- `notifications()` had nothing more to give. -/
  | returned
  /-- After a done or an error event. -/
  | finished
  | timeoutError
  | staleTurnStream
  /-- A notification of another shape than expected. -/
  | malformed (error : PyError)
  | raised (error : Exn)
deriving DecidableEq

inductive Point
  | checking
  /-- In `anext(notes)`, with the time the wait is cancelled at. -/
  | waiting (timer : Option ℚ)
  /-- In `on_idle`. -/
  | idling
  /-- In what an account notification asks for. -/
  | accounting
  | ended (exit : Exit)
deriving DecidableEq

structure Session where
  clock : ℚ
  /-- The queue of the transport; `none` is the sentinel of its end. -/
  queue : List (Option Notification)
  /-- `notifications()` is over. -/
  exhausted : Bool
  idleDeadline : Option ℚ
  turnStartedAt : ℚ
  lastIdleProbeAt : Option ℚ
  diagnostics : Diagnostics
  accumulated : String
  point : Point
  /-- What was put into the queue, what was taken from it, what `current_turn_notifications` has
  yielded, and what `run_turn` has. -/
  arrived : List (Option Notification)
  taken : List (Option Notification)
  yielded : List Notification
  events : List CodexEvent

section

variable (options : Options)

def Session.start (queue : List (Option Notification)) (turnStartedAt now : ℚ) : Session where
  clock := now
  queue := queue
  exhausted := false
  idleDeadline := options.idleS.map fun idle => now + idle
  turnStartedAt := turnStartedAt
  lastIdleProbeAt := none
  diagnostics := {}
  accumulated := ""
  point := .checking
  arrived := queue
  taken := []
  yielded := []
  events := []

namespace Session

variable (session : Session)

def exit? : Option Exit :=
  match session.point with
  | .ended exit => some exit
  | _ => none

/-- `extend_idle_deadline` -/
def extendIdleDeadline : Session :=
  match options.idleS with
  | some idle => { session with idleDeadline := some (session.clock + idle) }
  | none => session

def endWith (exit : Exit) : Session := { session with point := .ended exit }

/-- `_handle_idle` up to the call of `on_idle`, and what its caller makes of a `False`. -/
def handleIdle : Session :=
  match decideIdle session.clock session.turnStartedAt (!session.diagnostics.activeItems.isEmpty)
      session.lastIdleProbeAt options.hardCapS options.probeIntervalS with
  | .hardCapExceeded => session.endWith .timeoutError
  | .needsProbe =>
      if options.hasOnIdle then
        { session with lastIdleProbeAt := some session.clock, point := .idling }
      else session.endWith .timeoutError
  | .extendSilently => { session.extendIdleDeadline options with point := .checking }

/-- The body of `run_turn`'s loop. -/
def translate (note : Notification) : Session :=
  let recorded := { session with
    yielded := session.yielded ++ [note]
    diagnostics := session.diagnostics.absorbRaw options.python note }
  match translateNotification options.python note session.accumulated with
  | .error error => recorded.endWith (.malformed error)
  | .ok none => { recorded with point := .checking }
  | .ok (some event) =>
      let followed := { recorded with events := recorded.events ++ [event] }
      match event with
      | .token delta =>
          { followed with accumulated := followed.accumulated ++ delta, point := .checking }
      | .done _ | .error _ _ => followed.endWith .finished
      | .toolCall _ | .toolResult .. => { followed with point := .checking }

/-- `_record_stale_raw_note` -/
def recordStale : Session :=
  let diagnostics := session.diagnostics.absorbStaleRaw
  let recorded := { session with diagnostics := diagnostics, point := .checking }
  if diagnostics.rawCount = 0 ∧ options.stormThreshold ≤ diagnostics.staleRawCount then
    recorded.endWith .staleTurnStream
  else recorded

/-- `_handle_account_notification`: whether it awaits something. -/
def accountAwaits (note : Notification) : Bool :=
  options.hasRateLimits && (note.method = Method.threadTokenUsageUpdated ||
    ((note.params.lookup "rateLimits").bind Json.object?).isSome)

/-- The body of `current_turn_notifications`' loop. -/
def handle (note : Notification) : Session :=
  if note.isAccount then
    { session with point := if accountAwaits options note then .accounting else .checking }
  else if note.isStale options.turnId then session.recordStale options
  else if note.isSessionNoise then { session with point := .checking }
  else (session.extendIdleDeadline options).translate options note

/-- `anext(notes)` -/
def next : Option Session :=
  if session.exhausted then some (session.endWith .returned)
  else
    match session.queue with
    | [] => none
    | none :: rest =>
        some ({ session with
          queue := rest, taken := session.taken ++ [none], exhausted := true }.endWith .returned)
    | some note :: rest =>
        some ({ session with queue := rest, taken := session.taken ++ [some note] }.handle options
          note)

def resume : Option Session :=
  match session.point with
  | .checking =>
      match session.idleDeadline with
      | none => some { session with point := .waiting none }
      | some deadline =>
          if deadline - session.clock ≤ 0 then some (session.handleIdle options)
          else some { session with point := .waiting (some deadline) }
  | .waiting _ => session.next options
  | .idling | .accounting | .ended _ => none

/-- The wait is cancelled. The exception goes through `notifications()`. -/
def timeOut (timer : ℚ) : Option Session :=
  if timer ≤ session.clock ∧ !session.exhausted then
    let cancelled := { session with exhausted := true }
    if session.idleDeadline.any fun deadline => session.clock < deadline then
      some { cancelled with point := .checking }
    else some (cancelled.handleIdle options)
  else none

end Session

inductive Action
  | arrive (entry : Option Notification)
  | elapse (duration : ℚ)
  | resume
  | timeOut
  /-- `on_idle` returns; it may have moved the deadline. -/
  | answerIdle (moves answer : Bool)
  | answerAccount
  | raise (error : Exn)
  /-- A steer moves the deadline. -/
  | extend

def step (session : Session) : Action → Option Session
  | .arrive entry =>
      some { session with
        queue := session.queue ++ [entry], arrived := session.arrived ++ [entry] }
  | .elapse duration =>
      if 0 ≤ duration then some { session with clock := session.clock + duration } else none
  | .resume => session.resume options
  | .timeOut =>
      match session.point with
      | .waiting (some timer) => session.timeOut options timer
      | _ => none
  | .answerIdle moves answer =>
      if session.point = .idling then
        let moved := if moves then session.extendIdleDeadline options else session
        some (if answer then { moved with point := .checking } else moved.endWith .timeoutError)
      else none
  | .answerAccount =>
      if session.point = .accounting then some { session with point := .checking } else none
  | .raise error =>
      if session.point = .idling ∨ session.point = .accounting then
        some (session.endWith (.raised error))
      else none
  | .extend => some (session.extendIdleDeadline options)

end
end CodexServer.CodexTurn
