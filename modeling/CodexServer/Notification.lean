import Mathlib.Algebra.Order.Ring.Rat

/-!
# Notifications of the sidecar

A notification frame is a method and JSON parameters. Which turn it is about is read off its
parameters when it is put into the queue.
-/

namespace CodexServer

/-! ### JSON -/

inductive Json
  | null
  | bool (value : Bool)
  | number (value : ℚ)
  | string (value : String)
  | array (items : List Json)
  | object (fields : List (String × Json))

/-- What Python raises when a value is not of the expected shape. -/
inductive PyError
  | keyError (key : String)
  | typeError
  | attributeError
  | validationError
deriving DecidableEq

namespace Json

/-- `bool(value)` -/
def truthy : Json → Bool
  | null => false
  | bool value => value
  | number value => value ≠ 0
  | string value => value ≠ ""
  | array items => !items.isEmpty
  | object fields => !fields.isEmpty

def string? : Json → Option String
  | string value => some value
  | _ => none

def object? : Json → Option (List (String × Json))
  | object fields => some fields
  | _ => none

/-- `value[key]` -/
def index (key : String) : Json → Except PyError Json
  | object fields => ((fields.lookup key).elim (.error (.keyError key)) .ok)
  | _ => .error .typeError

/-- `value.get(key)` -/
def get (key : String) : Json → Except PyError (Option Json)
  | object fields => .ok (fields.lookup key)
  | _ => .error .attributeError

/-- `value.get(key)` where `None` stands for a missing key. -/
def getOrNull (key : String) (value : Json) : Except PyError Json :=
  return (← value.get key).getD null

/-- A field that has to be a string. -/
def asString : Json → Except PyError String
  | string value => .ok value
  | _ => .error .validationError

end Json

/-! ### Notifications -/

structure Notification where
  method : String
  params : List (String × Json)

/-- The notification of a frame; parameters that are no object count as none. -/
def Notification.ofFrame (method : String) (params : Option Json) : Notification :=
  ⟨method, (params.bind Json.object?).getD []⟩

/-- `params.turnId` when that is a string. -/
def Notification.turnId (note : Notification) : Option String :=
  (note.params.lookup "turnId").bind Json.string?

namespace CodexNotif

def turnStarted : String := "turn/started"

def turnCompleted : String := "turn/completed"

def agentMsgDelta : String := "item/agentMessage/delta"

def itemStarted : String := "item/started"

def itemCompleted : String := "item/completed"

end CodexNotif

namespace Method

def accountRateLimitsUpdated : String := "account/rateLimits/updated"

def threadTokenUsageUpdated : String := "thread/tokenUsage/updated"

end Method

namespace Notification

variable (note : Notification)

/-- `note.method.startswith("item/")` -/
def isItem : Bool := "item/".toList.isPrefixOf note.method.toList

/-- The notifications about the account, which are handled on the side. -/
def isAccount : Bool :=
  note.method = Method.accountRateLimitsUpdated || note.method = Method.threadTokenUsageUpdated

/-- `_is_stale_turn_note`, while this turn is the current one. -/
def isStale (currentTurnId : String) : Bool := note.turnId.any fun turnId => turnId ≠ currentTurnId

/-- `_is_session_noise_note` -/
def isSessionNoise : Bool :=
  note.turnId.isNone && note.method ≠ CodexNotif.turnCompleted && !note.isItem

/-- What `current_turn_notifications` yields. -/
def passes (currentTurnId : String) : Bool :=
  !note.isAccount && !note.isStale currentTurnId && !note.isSessionNoise

end Notification
end CodexServer
