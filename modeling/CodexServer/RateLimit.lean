import Mathlib.Algebra.Order.Ring.Rat
import Mathlib.Data.Finset.Card
import CodexServer.Library.Transition

/-!
# Rate limit of a user

Two keys per user: a counter of the turns that are alive, and the times of the reservations of the
last hour. `reserve_turn` is one script; `release_turn` is a `DECR` and, when nothing is left, a
`DELETE` of its own.
-/

namespace CodexServer.RateLimit

/-- `_ACTIVE_TTL_S` -/
def activeTtl : ℚ := 600

/-- `_HOURLY_WINDOW_S` -/
def hourlyWindow : ℚ := 3600

inductive UserKind
  | admin
  | webUser
  | tgGuest
deriving DecidableEq

/-- Zero is no limit. -/
structure TurnLimits where
  active : Nat
  hourly : Nat

structure RuntimeSettings where
  webUser : TurnLimits
  tgGuest : TurnLimits
  tgGuestMaxUploadMb : Nat

def RuntimeSettings.turnLimits (settings : RuntimeSettings) : UserKind → TurnLimits
  | .admin => ⟨0, 0⟩
  | .webUser => settings.webUser
  | .tgGuest => settings.tgGuest

/-! ### The keys -/

/-- A key with an integer, and when it expires. -/
structure Counter where
  value : Int
  deadline : Option ℚ
deriving DecidableEq

/-- A sorted set whose members are their own scores. -/
structure ScoreSet where
  members : Finset ℚ
  deadline : Option ℚ
deriving DecidableEq

/-- `ratelimit:active:{user}` and `ratelimit:hourly:{user}` -/
structure Keys where
  active : Option Counter
  hourly : Option ScoreSet
deriving DecidableEq

/-- `INCRBY`; a key that is not there counts from zero and has no deadline. -/
def incrBy (amount : Int) : Option Counter → Int × Option Counter
  | none => (amount, some ⟨amount, none⟩)
  | some counter => (counter.value + amount, some { counter with value := counter.value + amount })

def incr : Option Counter → Int × Option Counter := incrBy 1

def decr : Option Counter → Int × Option Counter := incrBy (-1)

def Counter.expireAt (deadline : ℚ) (counter : Counter) : Counter :=
  { counter with deadline := some deadline }

/-- `ZREMRANGEBYSCORE key 0 cutoff`; a set that becomes empty is gone. -/
def zRemRangeByScore (cutoff : ℚ) (key : Option ScoreSet) : Option ScoreSet :=
  (key.map fun scores =>
    { scores with members := scores.members.filter fun score => ¬(0 ≤ score ∧ score ≤ cutoff) }).filter
      fun scores => scores.members.Nonempty

/-- `ZCARD` -/
def zCard (key : Option ScoreSet) : Nat := key.elim 0 fun scores => scores.members.card

/-- `ZADD key score score` and the `EXPIRE` after it. -/
def zAdd (score deadline : ℚ) (key : Option ScoreSet) : ScoreSet :=
  ⟨insert score (key.elim ∅ ScoreSet.members), some deadline⟩

/-- A deadline that has not come. -/
def alive (now : ℚ) (deadline : Option ℚ) : Bool := deadline.all fun deadline => now < deadline

/-- The keys without those whose deadline has come. -/
def Keys.expire (now : ℚ) (keys : Keys) : Keys where
  active := keys.active.filter fun counter => alive now counter.deadline
  hourly := keys.hourly.filter fun scores => alive now scores.deadline

/-! ### `reserve_turn` -/

inductive ReserveReply
  | ok
  | hourly (count : Nat)
  | active (count : Int)
deriving DecidableEq

section

variable (limits : TurnLimits) (reading clock : ℚ)

/-- The reservations of the last hour, trimmed when there is a limit on them. -/
def hourlyTrimmed (key : Option ScoreSet) : Option ScoreSet :=
  if 0 < limits.hourly then zRemRangeByScore (reading - hourlyWindow) key else key

/-- The hourly limit is reached. -/
def hourlyReached (keys : Keys) : Bool :=
  0 < limits.hourly ∧ limits.hourly ≤ zCard (hourlyTrimmed limits reading keys.hourly)

/-- The `INCR` of the script, and the deadline of a counter that begins. -/
def beginActive (key : Option Counter) : Int × Option Counter :=
  let (active, counter) := incr key
  (active, if active = 1 then counter.map (Counter.expireAt (clock + activeTtl)) else counter)

/-- `_RESERVE_LUA` at the time `clock`, for a caller whose clock read `reading`. -/
def reserveScript (keys : Keys) : ReserveReply × Keys :=
  let hourly := hourlyTrimmed limits reading keys.hourly
  if hourlyReached limits reading keys then (.hourly (zCard hourly), { keys with hourly := hourly })
  else
    let (active, counter) := beginActive clock keys.active
    if 0 < limits.active ∧ (limits.active : Int) < active then
      (.active (active - 1), ⟨(decr counter).2, hourly⟩)
    else
      (.ok, ⟨counter,
        if 0 < limits.hourly then some (zAdd reading (clock + hourlyWindow * 2) hourly) else hourly⟩)

end

structure RateLimited where
  kind : UserKind
  scope : String
  limit : Nat
deriving DecidableEq

section

variable (kind : UserKind) (settings : RuntimeSettings)

def reserveTurn (reading clock : ℚ) (keys : Keys) : Except RateLimited Unit × Keys :=
  if kind = .admin then (.ok (), keys)
  else
    let limits := settings.turnLimits kind
    match reserveScript limits reading clock keys with
    | (.ok, keys) => (.ok (), keys)
    | (.hourly _, keys) => (.error ⟨kind, "hourly", limits.hourly⟩, keys)
    | (.active _, keys) => (.error ⟨kind, "active", limits.active⟩, keys)

/-! ### `release_turn` -/

/-- The `DECR`; whether the `DELETE` is to follow. -/
def releaseDecr (keys : Keys) : Bool × Keys :=
  if kind = .admin then (false, keys)
  else
    let (remaining, counter) := decr keys.active
    (remaining ≤ 0, { keys with active := counter })

def releaseDelete (keys : Keys) : Keys := { keys with active := none }

/-- `release_turn` with nothing in between. -/
def releaseTurn (keys : Keys) : Keys :=
  let (last, keys) := releaseDecr kind keys
  if last then releaseDelete keys else keys

/-! ### The reservations of a user -/

inductive Reservation
  | held
  /-- Released, but for the `DELETE`. -/
  | closing
  | released
deriving DecidableEq

structure State where
  clock : ℚ
  keys : Keys
  /-- The admitted reservations, in their order. -/
  reservations : List Reservation
  /-- When the first of the reservations that are held now was made. -/
  busySince : ℚ

def State.init : State := ⟨0, ⟨none, none⟩, [], 0⟩

namespace State

variable (state : State)

/-- The active counter; a key that is not there counts as zero. -/
def active : Int := state.keys.active.elim 0 Counter.value

/-- The reservations that are not released. -/
def outstanding : Nat := state.reservations.count .held

/-- A release is between its two commands. -/
def isClosing : Bool := state.reservations.contains .closing

def admits (reading : ℚ) : Bool :=
  match (reserveTurn kind settings reading state.clock state.keys).1 with
  | .ok _ => true
  | .error _ => false

end State

inductive Action
  | elapse (duration : ℚ)
  | reserve (reading : ℚ)
  | decr (id : Nat)
  | delete (id : Nat)
  /-- `decr` and `delete` in one step. -/
  | release (id : Nat)

/-- One step of the callers of one user. A release is of a reservation that is held. -/
def step (state : State) : Action → Option State
  | .elapse duration =>
      if 0 ≤ duration then
        some { state with
          clock := state.clock + duration
          keys := state.keys.expire (state.clock + duration) }
      else none
  | .reserve reading =>
      let keys := (reserveTurn kind settings reading state.clock state.keys).2
      if state.admits kind settings reading then
        some { state with
          keys := keys
          reservations := state.reservations ++ [.held]
          busySince := if state.outstanding = 0 then state.clock else state.busySince }
      else some { state with keys := keys }
  | .decr id =>
      if state.reservations[id]? = some .held then
        let (last, keys) := releaseDecr kind state.keys
        some { state with
          keys := keys
          reservations := state.reservations.set id (if last then .closing else .released) }
      else none
  | .delete id =>
      if state.reservations[id]? = some .closing then
        some { state with
          keys := releaseDelete state.keys
          reservations := state.reservations.set id .released }
      else none
  | .release id =>
      if state.reservations[id]? = some .held then
        some { state with
          keys := releaseTurn kind state.keys
          reservations := state.reservations.set id .released }
      else none

end
end CodexServer.RateLimit
