import CodexServer.CodexTurn

/-!
# The clock of a turn

The turn with the times that its deadline depends on. Time passes in the wait for a notification
only, and not beyond the timer of that wait: the callbacks and their requests take none. No steer of
this process comes in, which would move the deadline by itself.
-/

namespace CodexServer.CodexTurn

structure TimedTurn where
  session : Session
  /-- When the last notification was yielded, or the turn began. -/
  yieldedAt : ℚ
  /-- When the deadline was last set. -/
  extendedAt : ℚ

section

variable (options : Options)

/-- A turn that begins at `startedAt`. -/
def TimedTurn.start (queue : List (Option Notification)) (startedAt : ℚ) : TimedTurn :=
  ⟨.start options queue startedAt startedAt, startedAt, startedAt⟩

variable (turn : TimedTurn)

/-- The times after a step of the session. -/
def TimedTurn.moved (next : Session) : TimedTurn where
  session := next
  yieldedAt := if turn.session.yielded.length < next.yielded.length then next.clock
    else turn.yieldedAt
  extendedAt := if next.idleDeadline = turn.session.idleDeadline then turn.extendedAt
    else next.clock

/-- Time may pass for so long. -/
def TimedTurn.lets (duration : ℚ) : Bool :=
  match turn.session.point with
  | .waiting timer => decide (0 ≤ duration) &&
      timer.all fun timer => decide (turn.session.clock + duration ≤ timer)
  | _ => false

def timedStep : Action → Option TimedTurn
  | .elapse duration =>
      if turn.lets duration then
        some { turn with session := { turn.session with clock := turn.session.clock + duration } }
      else none
  | .extend => none
  | action => (step options turn.session action).map turn.moved

/-- A step of the turn itself or of a callback of it. -/
def Action.prompt : Action → Bool
  | .resume | .timeOut | .answerIdle _ _ | .answerAccount | .raise _ => true
  | .arrive _ | .elapse _ | .extend => false

/-- `on_idle` answers true without moving the deadline, and so is asked again. -/
def Action.spins : Action → Bool
  | .answerIdle moves answer => !moves && answer
  | _ => false

end
end CodexServer.CodexTurn
