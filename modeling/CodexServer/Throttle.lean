import CodexServer.RateLimit
import CodexServer.Registration
import CodexServer.Invites

/-!
# Failed logins of an address

`login` and `register` ask `check` first and count a failure with `register_failure`. An attempt is
one step here, from its check to the count.
-/

namespace CodexServer.Throttle

open RateLimit (Counter incr alive)
open Registration (UserRow ConnectError Env)
open Invites (InviteError)

/-- `_MAX_ATTEMPTS` -/
def maxAttempts : Int := 5

/-- `_WINDOW_S` -/
def window : ℚ := 15 * 60

/-- `_LOCKOUT_S` -/
def lockout : ℚ := 15 * 60

/-- `check` raises. -/
def barred (key : Option Counter) : Bool := key.any fun counter => maxAttempts ≤ counter.value

/-- `register_failure` -/
def registerFailure (clock : ℚ) (key : Option Counter) : Option Counter :=
  let (count, counter) := incr key
  if count = 1 then counter.map (Counter.expireAt (clock + window))
  else if maxAttempts ≤ count then counter.map (Counter.expireAt (clock + lockout))
  else counter

/-! ### The attempts -/

/-- A request, with what it finds. -/
inductive Attempt
  /-- The user of the email. -/
  | login (user : Option UserRow) (password : String)
  /-- The user of the email, and what `redeem` raises. -/
  | register (email password inviteToken displayName : String) (existing : Option UserRow)
      (redeem : Option InviteError)

inductive Failure
  | invalidCredentials
  | alreadyRegistered
  | rejected (error : ConnectError)
deriving DecidableEq

/-- `register_failure` comes before these two errors, and before no other. -/
def Failure.counted : Failure → Bool
  | .invalidCredentials | .alreadyRegistered => true
  | .rejected _ => false

def inviteRefused : InviteError → ConnectError
  | .notFound => ⟨.notFound, "invite not found"⟩
  | .used => ⟨.failedPrecondition, "invite already used"⟩
  | .expired => ⟨.failedPrecondition, "invite expired"⟩

section

variable (env : Env) (verify : String → Option String → Bool)

/-- `login` after its check. -/
def login (user : Option UserRow) (password : String) : Option Failure :=
  if user.any fun row => verify password row.passwordHash then none
  else some .invalidCredentials

/-- `register` after its check. -/
def register (email password inviteToken displayName : String) (existing : Option UserRow)
    (redeem : Option InviteError) : Option Failure :=
  match env.accept (.register email password inviteToken displayName) with
  | .error error => some (.rejected error)
  | .ok call =>
      if existing.any UserRow.hasPassword then some .alreadyRegistered
      else if call.inviteToken.isNone then none
      else redeem.map fun error => .rejected (inviteRefused error)

def Attempt.failure : Attempt → Option Failure
  | .login user password => Throttle.login verify user password
  | .register email password inviteToken displayName existing redeem =>
      Throttle.register env email password inviteToken displayName existing redeem

/-- The key after an attempt; one that succeeds clears it. -/
def countAttempt (clock : ℚ) (key : Option Counter) (attempt : Attempt) : Option Counter :=
  match attempt.failure env verify with
  | none => none
  | some failure => if failure.counted then registerFailure clock key else key

/-! ### The attempts of an address -/

structure State where
  clock : ℚ
  /-- `auth:bf:{ip}` -/
  key : Option Counter
  /-- When the attempts failed that got past the check, since the last success. -/
  failures : List ℚ
  /-- When the fifth failure was counted. -/
  fifths : List ℚ

def State.init : State := ⟨0, none, [], []⟩

inductive Action
  | elapse (duration : ℚ)
  | attempt (attempt : Attempt)

def step (state : State) : Action → Option State
  | .elapse duration =>
      if 0 ≤ duration then
        some { state with
          clock := state.clock + duration
          key := state.key.filter fun counter => alive (state.clock + duration) counter.deadline }
      else none
  | .attempt attempt =>
      if barred state.key then some state
      else
        let key := countAttempt env verify state.clock state.key attempt
        some { state with
          key := key
          failures := if (attempt.failure env verify).isNone then []
            else state.failures ++ [state.clock]
          fifths := if barred key then state.fifths ++ [state.clock] else state.fifths }

/-- How many attempts failed in the interval that ends with `instant`. -/
def State.failedIn (state : State) (instant : ℚ) : Nat :=
  state.failures.countP fun time => instant - window < time ∧ time ≤ instant

end
end CodexServer.Throttle
