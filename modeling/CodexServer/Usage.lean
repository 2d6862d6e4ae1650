import CodexServer.CodexTurn
import Mathlib.Data.Rat.Floor

/-!
# The usage side channel

While a turn is read, notifications about the account go to the usage panel: a rate-limit update is
published as it is, a token usage makes the client ask for the limits first. The idle deadline is
left out.
-/

namespace CodexServer.Usage

inductive Raised
  | appServerError (code : Int)
  | timeoutError
  /-- The `RuntimeError` of a lost connection. -/
  | connectionLost
  | attributeError
  /-- The `ValueError` or `OverflowError` of `fromtimestamp`. -/
  | timestampError
  | encodeError
  | redisError
  | other
deriving DecidableEq

/-! ### Timestamps -/

inductive PyFloat
  | finite (value : ℚ)
  | infinite (negative : Bool)
  | nan
deriving DecidableEq

/-- A `datetime` in UTC, in microseconds of the epoch. -/
structure Datetime where
  microseconds : ℤ
  /-- From the year 1 to the year 9999. -/
  inRange : -62135596800000000 ≤ microseconds ∧ microseconds < 253402300800000000

/-- To the nearest integer, and half way to the even one. -/
def roundHalfEven (value : ℚ) : ℤ :=
  let part := value - ⌊value⌋
  if part < 1 / 2 ∨ part = 1 / 2 ∧ Even ⌊value⌋ then ⌊value⌋ else ⌊value⌋ + 1

/-- `datetime.fromtimestamp(timestamp, UTC)` -/
def fromtimestamp : PyFloat → Except Raised Datetime
  | .finite value =>
      let microseconds := roundHalfEven (value * 1000000)
      if inRange : -62135596800000000 ≤ microseconds ∧ microseconds < 253402300800000000 then
        .ok ⟨microseconds, inRange⟩
      else .error .timestampError
  | .infinite _ | .nan => .error .timestampError

/-! ### Rate limits -/

structure RateLimitWindowIn where
  usedPercent : Option PyFloat
  windowDurationMins : Option ℤ
  resetsAt : Option PyFloat

structure RateLimitSnapshot where
  planType : Option String
  primary : Option RateLimitWindowIn
  secondary : Option RateLimitWindowIn

structure UsageWindow where
  usedPercent : PyFloat
  windowMinutes : ℤ
  resetsAt : Option Datetime

structure CodexUsage where
  updatedAt : Datetime
  planType : Option String
  primary : Option UsageWindow
  secondary : Option UsageWindow

/-- What the service has from its libraries. -/
structure Libraries where
  /-- `RateLimitSnapshot.model_validate`, `none` for a `ValidationError`. -/
  validate : List (String × Json) → Option RateLimitSnapshot
  /-- `orjson.dumps` of the dumped model, `none` when it raises. -/
  dumps : CodexUsage → Option String

/-- `_to_window` -/
def toWindow : Option RateLimitWindowIn → Except Raised (Option UsageWindow)
  | none => .ok none
  | some window =>
      match window.usedPercent with
      | none => .ok none
      | some usedPercent => do
          let resetsAt ← window.resetsAt.mapM fromtimestamp
          return some ⟨usedPercent, window.windowDurationMins.getD 0, resetsAt⟩

def parseUsage (now : Datetime) (snapshot : RateLimitSnapshot) : Except Raised CodexUsage := do
  let primary ← toWindow snapshot.primary
  let secondary ← toWindow snapshot.secondary
  return ⟨now, snapshot.planType, primary, secondary⟩

/-! ### Publishing -/

/-- What the side channel meets with at one notification: the time, the answer to
`account/rateLimits/read`, and those of the two Redis commands. -/
structure Behaviour where
  now : Datetime
  read : Except Raised Json
  set : Except Raised Unit
  publish : Except Raised Unit

section

variable (libraries : Libraries) (behaviour : Behaviour)

/-- `_publish` -/
def publish (usage : CodexUsage) : Except Raised Unit :=
  match libraries.dumps usage with
  | none => .error .encodeError
  | some _ =>
      tryCatch (behaviour.set >>= fun _ => behaviour.publish) fun raised =>
        if raised = .redisError then .ok () else .error raised

def publishRateLimits (snapshot : List (String × Json)) : Except Raised Unit :=
  match libraries.validate snapshot with
  | none => .ok ()
  | some validated => parseUsage behaviour.now validated >>= publish libraries behaviour

/-- `read_rate_limits` -/
def readRateLimits : Except Raised (Option (List (String × Json))) :=
  match behaviour.read with
  | .error raised => if raised = .appServerError (-32601) then .ok none else .error raised
  | .ok result =>
      match result.get "rateLimits" with
      | .error _ => .error .attributeError
      | .ok snapshot => .ok (snapshot.bind Json.object?)

end

/-! ### Reading a turn -/

structure Options where
  turnId : String
  stormThreshold : Nat
  python : Python
  /-- Whether `on_rate_limits_update` is given, and has a sidecar to publish for. -/
  hasRateLimits : Bool
  hasSidecar : Bool
  libraries : Libraries
  /-- The reader asks for more after what it has got. -/
  wants : List Notification → Bool

/-- A notification, and what the side channel meets with there. -/
structure Arrival where
  note : Notification
  behaviour : Behaviour

inductive Ending
  /-- There are no more notifications. -/
  | returned
  /-- The reader wants no more. -/
  | closed
  | staleTurnStream
  | raised (error : Raised)
deriving DecidableEq

/-- What has been yielded, and the end. -/
structure Outcome where
  yielded : List Notification
  ending : Ending

/-- What has been yielded, and what the diagnostics say. -/
structure Reader where
  yielded : List Notification := []
  diagnostics : CodexTurn.Diagnostics := {}

section

variable (options : Options)

def onRateLimitsUpdate (behaviour : Behaviour) (snapshot : List (String × Json)) :
    Except Raised Unit :=
  if options.hasSidecar then publishRateLimits options.libraries behaviour snapshot else .ok ()

/-- `_handle_account_notification` -/
def handleAccountNotification (arrival : Arrival) : Except Raised Bool :=
  if arrival.note.method = Method.accountRateLimitsUpdated then
    match (arrival.note.params.lookup "rateLimits").bind Json.object? with
    | some rateLimits =>
        if options.hasRateLimits then do
          onRateLimitsUpdate options arrival.behaviour rateLimits
          return true
        else return true
    | none => return true
  else if arrival.note.method ≠ Method.threadTokenUsageUpdated then return false
  else if options.hasRateLimits then do
    match ← readRateLimits arrival.behaviour with
    | some rateLimits =>
        onRateLimitsUpdate options arrival.behaviour rateLimits
        return true
    | none => return true
  else return true

/-- `_record_stale_raw_note` -/
def Reader.recordStale (reader : Reader) : Except Outcome Reader :=
  let diagnostics := reader.diagnostics.absorbStaleRaw
  if diagnostics.rawCount = 0 ∧ options.stormThreshold ≤ diagnostics.staleRawCount then
    .error ⟨reader.yielded, .staleTurnStream⟩
  else .ok { reader with diagnostics := diagnostics }

/-- The note is yielded, and the reader records it. -/
def Reader.yield (reader : Reader) (note : Notification) : Except Outcome Reader :=
  let yielded := reader.yielded ++ [note]
  if options.wants yielded then
    .ok ⟨yielded, reader.diagnostics.absorbRaw options.python note⟩
  else .error ⟨yielded, .closed⟩

/-- The body of `current_turn_notifications`' loop. -/
def Reader.read (reader : Reader) (arrival : Arrival) : Except Outcome Reader :=
  match handleAccountNotification options arrival with
  | .error raised => .error ⟨reader.yielded, .raised raised⟩
  | .ok true => .ok reader
  | .ok false =>
      if arrival.note.isStale options.turnId then reader.recordStale options
      else if arrival.note.isSessionNoise then .ok reader
      else reader.yield options arrival.note

/-- The end of a run: where nothing has ended it, the queue has. -/
def outcome : Except Outcome Reader → Outcome
  | .ok reader => ⟨reader.yielded, .returned⟩
  | .error ended => ended

def currentTurnNotifications (arrivals : List Arrival) : Outcome :=
  outcome (arrivals.foldlM (Reader.read options) {})

end
end CodexServer.Usage
