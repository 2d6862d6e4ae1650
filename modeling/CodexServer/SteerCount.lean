import CodexServer.RateLimit
import CodexServer.StreamTurn

/-!
# Steers and the boundary checks of a turn

Other workers count the steers they have had accepted in a Redis key with a TTL: the `USER` row is
committed, then the key incremented, then its TTL set anew. The loop of the turn runs the boundary
check of `stream_turn` between two events; its awaits are steps of their own, and steers come between
them. The database answers; a transaction that fails ends the loop and is left out.
-/

namespace CodexServer.SteerCount

open RateLimit (Counter incr alive)

/-- `_ttl_s` for `WEB_TURN_TIMEOUT_SECONDS` and `TG_TURN_TIMEOUT_SECONDS` -/
def ttlS (webTimeout tgTimeout : ℚ) : ℚ :=
  Int.tdiv (max webTimeout tgTimeout).num (max webTimeout tgTimeout).den + 60

/-- `int(raw)`; a key that is not there counts as zero. -/
def peeked (key : Option Counter) : Nat := key.elim 0 fun counter => counter.value.toNat

inductive SteerPhase
  /-- The `USER` row is committed. -/
  | accepted
  /-- `INCR` is done, `EXPIRE` not. -/
  | counted
  | bumped
deriving DecidableEq

structure Steer where
  row : Nat
  phase : SteerPhase
deriving DecidableEq

structure Check where
  before : StreamState
  /-- A steer was counted since the check before. -/
  unseen : Bool
  /-- The rows of the steers that were counted when it looked, or when it wrote its row, and that row
  with its text. -/
  counted : List Nat
  row : Option (Nat × String)

/-- What is left of a boundary check. -/
abbrev CheckCode : Type := Program Op Op.Val Fault ChatEvent (Except Exn Unit × StreamState)

inductive Phase
  | looping (state : StreamState)
  | checking (check : Check) (code : CheckCode)
  | ended

structure Turn where
  clock : ℚ
  key : Option Counter
  phase : Phase
  steers : List Steer
  /-- The rows of the steers that are counted, how many of them were there at the last look, and the
  highest count that the loop has seen. -/
  counted : List Nat
  observed : Nat
  mark : Nat
  checks : List Check
  nextId : Nat

namespace Turn

def start (nextId : Nat) : Turn := ⟨0, none, .looping {}, [], [], 0, 0, [], nextId⟩

variable (turn : Turn)

/-- The loop goes on with a check, or past its end. -/
def goOn (check : Check) : CheckCode → Turn
  | .ret (.ok _, state) =>
      { turn with phase := .looping state, checks := turn.checks ++ [check] }
  | .ret (.error _, _) => { turn with phase := .ended }
  | code => { turn with phase := .checking check code }

end Turn

inductive Action
  | elapse (duration : ℚ)
  /-- Somebody else takes an id of `messages`. -/
  | append
  | event (event : CodexEvent)
  | steer
  /-- The two commands of `bump_steer_count`. -/
  | count (index : Nat)
  | prolong (index : Nat)
  | check
  /-- The `GET` of `peek_steer_count`. -/
  | peek
  /-- The transaction of the partial row, and the refresh after it. -/
  | persist
  | refresh
deriving DecidableEq

section

variable (cfg : ExecConfig) (row : TurnRow) (ttl : ℚ) (turn : Turn)

def step : Action → Option Turn
  | .elapse duration =>
      if 0 ≤ duration then
        some { turn with
          clock := turn.clock + duration
          key := turn.key.filter fun counter => alive (turn.clock + duration) counter.deadline }
      else none
  | .append => some { turn with nextId := turn.nextId + 1 }
  | .event event => match turn.phase with
      | .looping state => some { turn with
          phase := .looping { state with collector := state.collector.absorb event } }
      | _ => none
  | .steer => some { turn with
      steers := turn.steers ++ [⟨turn.nextId, .accepted⟩]
      nextId := turn.nextId + 1 }
  | .count index => match turn.steers[index]? with
      | some ⟨steer, .accepted⟩ => some { turn with
          key := (incr turn.key).2
          steers := turn.steers.set index ⟨steer, .counted⟩
          counted := turn.counted ++ [steer] }
      | _ => none
  | .prolong index => match turn.steers[index]? with
      | some ⟨steer, .counted⟩ => some { turn with
          key := turn.key.map (Counter.expireAt (turn.clock + ttl))
          steers := turn.steers.set index ⟨steer, .bumped⟩ }
      | _ => none
  | .check => match turn.phase with
      | .looping state =>
          some (turn.goOn ⟨state, false, [], none⟩ (checkSteerBoundary cfg row state))
      | _ => none
  | .peek => match turn.phase with
      | .checking check (.call (.peekSteer _) next) =>
          some (({ turn with
              observed := turn.counted.length
              mark := max turn.mark (peeked turn.key) }).goOn
            { check with
              unseen := decide (turn.observed < turn.counted.length)
              counted := turn.counted } (next (.ok (peeked turn.key))))
      | _ => none
  | .persist => match turn.phase with
      | .checking check (.call (.persistPartial _ draft _) next) =>
          some (({ turn with nextId := turn.nextId + 1 }).goOn
            { check with counted := turn.counted, row := some (turn.nextId, draft.text) }
            (next (.ok turn.nextId)))
      | _ => none
  | .refresh => match turn.phase with
      | .checking check (.call .refresh next) => some (turn.goOn check (next (.ok ())))
      | _ => none

end
end CodexServer.SteerCount
