import CodexServer.Library.ExpiringStore
import CodexServer.Library.Transition
import Mathlib.Data.List.DropRight
import Mathlib.Data.Option.Basic

/-!
# The lease-expired listener of every web process

Each web process runs `lease_expired_listener`. The one that has the leader key subscribes to the
messages about expired keys and finalises the turn of each, while a task of it refreshes the key. A
command takes effect in Redis before its answer is there, and the answer may be lost. What a process
writes into the key is its `worker_id()`, a parameter here.
-/

namespace CodexServer.LeaseListener

/-! ### Messages -/

def leaseKeyPrefix : List Char := "turn:lease:".toList

/-- `lease_key` -/
def leaseKey (turnId : Nat) : List Char := leaseKeyPrefix ++ Nat.toDigits 10 turnId

/-- The zeros of the scripts that have decimal digits; the other digits follow them. -/
def zeros : List Nat :=
  [0x30, 0x660, 0x6f0, 0x7c0, 0x966, 0x9e6, 0xa66, 0xae6, 0xb66, 0xbe6, 0xc66, 0xce6, 0xd66, 0xde6,
    0xe50, 0xed0, 0xf20, 0x1040, 0x1090, 0x17e0, 0x1810, 0x1946, 0x19d0, 0x1a80, 0x1a90, 0x1b50,
    0x1bb0, 0x1c40, 0x1c50, 0xa620, 0xa8d0, 0xa900, 0xa9d0, 0xa9f0, 0xaa50, 0xabf0, 0xff10, 0x104a0,
    0x10d30, 0x10d40, 0x11066, 0x110f0, 0x11136, 0x111d0, 0x112f0, 0x11450, 0x114d0, 0x11650,
    0x116c0, 0x116d0, 0x116da, 0x11730, 0x118e0, 0x11950, 0x11bf0, 0x11c50, 0x11d50, 0x11da0,
    0x11f50, 0x16a60, 0x16ac0, 0x16b50, 0x16d70, 0x1ccf0, 0x1d7ce, 0x1d7d8, 0x1d7e2, 0x1d7ec,
    0x1d7f6, 0x1e140, 0x1e2f0, 0x1e4f0, 0x1e5f1, 0x1e950, 0x1fbf0]

/-- The value of a decimal digit. -/
def decimal (c : Char) : Option Nat :=
  (zeros.find? fun first => first ≤ c.toNat && c.toNat < first + 10).map fun first => c.toNat - first

/-- The digits after the first of an `int`, with single underscores between them. -/
def moreDigits : Nat → List Char → Option Nat
  | number, [] => some number
  | number, '_' :: c :: rest => do moreDigits (10 * number + (← decimal c)) rest
  | number, c :: rest => do moreDigits (10 * number + (← decimal c)) rest

/-- The white space that `int` leaves out. -/
def isIntSpace (c : Char) : Bool :=
  let code := c.toNat
  (9 ≤ code && code ≤ 13) || code == 32 || code == 0x85 || code == 0xA0 || code == 0x1680 ||
    (0x2000 ≤ code && code ≤ 0x200A) || code == 0x2028 || code == 0x2029 || code == 0x202F ||
    code == 0x205F || code == 0x3000

/-- `int` of digits without a sign, of which it takes 4300 at most. -/
def natOf (digits : List Char) : Option Nat :=
  match digits with
  | [] => none
  | c :: rest =>
      if (digits.countP fun c => c ≠ '_') ≤ 4300 then do moreDigits (← decimal c) rest else none

/-- `int` -/
def intOf (text : List Char) : Option Int :=
  match (text.dropWhile isIntSpace).rdropWhile isIntSpace with
  | '-' :: digits => (natOf digits).map fun number => -number
  | '+' :: digits => (natOf digits).map fun number => number
  | digits => (natOf digits).map fun number => number

/-- `turn_id_from_key` -/
def turnIdFromKey (key : List Char) : Option Int :=
  if leaseKeyPrefix.isPrefixOf key then intOf (key.drop leaseKeyPrefix.length) else none

/-- What a subscription yields: the answer to SUBSCRIBE, or the name of an expired key. The number
is the message's own, and nothing reads it. -/
inductive Item
  | subscribed
  | message (serial : Nat) (key : List Char)
deriving DecidableEq

/-! ### A listener -/

inductive Failure
  | redisError
  | osError
  | cancelled
  | other
deriving DecidableEq

/-- `_refresh_leadership`, and where it awaits. A command knows whether Redis has carried it out, with
what result and since when. -/
inductive Refresher
  /-- In `_wait_or_timeout`. -/
  | waiting (due : Nat)
  | refreshing (served : Option Bool) (since : Nat)
  | done
deriving DecidableEq

/-- Where `lease_expired_listener` awaits. An `exit` is the exception on the way out of
`_consume_expired_events`, if there is one; `again` says whether the loop goes on. -/
inductive Point
  | acquiring (served : Option Bool) (since : Nat)
  /-- In `_wait_or_timeout` without the lead. -/
  | retrying (due : Nat)
  | subscribing (since : Nat)
  | listening
  /-- In `_finalize_lease_expired`. -/
  | handling (serial : Nat) (turnId : Int)
  /-- At the cancelled task. -/
  | joining (exit : Option Failure)
  | unsubscribing (exit : Option Failure)
  | closing (exit : Option Failure)
  | backingOff (due : Nat)
  | releasing (served : Bool) (again : Bool)
  | ended
deriving DecidableEq

structure Listener where
  point : Point
  refresher : Refresher := .done
  /-- What its subscription holds, once it has one. -/
  inbox : Option (List Item) := none
  backoff : Nat := 1
  /-- `stop.is_set()` -/
  stop : Bool := false
  /-- When its process died. -/
  crashed : Option Nat := none
deriving DecidableEq

/-- `LEADER_TTL_S` -/
def leaderTtl : Nat := 30

/-- `_LEADER_REFRESH_INTERVAL_S` -/
def refreshInterval : Nat := 10

namespace Listener

variable (listener : Listener) (now : Nat)

/-- The top of the loop. -/
def loop : Listener :=
  { listener with point := if listener.stop then .ended else .acquiring none now }

/-- `_refresh_leadership` at the top of its loop. -/
def refreshLeadership : Refresher :=
  if listener.stop then .done else .waiting (now + refreshInterval)

/-- `_consume_expired_events` is left. -/
def consumed : Option Failure → Listener
  | none => { listener with backoff := 1, point := .releasing false true }
  | some .redisError | some .osError =>
      { listener with
        point := if listener.stop then .releasing false false else .backingOff (now + listener.backoff) }
  | some .cancelled | some .other => { listener with point := .releasing false false }

/-- The await on the refreshing task, which has been cancelled, is over. -/
def joined (exit : Option Failure) : Listener :=
  { listener with refresher := .done, point := .unsubscribing exit }

/-- The body of the loop over the messages. -/
def consume (rest : List Item) : Item → Listener
  | item =>
      let listening := { listener with inbox := some rest, point := .listening }
      if listener.stop ∨ listener.refresher = .done then { listening with point := .joining none }
      else
        match item with
        | .subscribed => listening
        | .message serial key =>
            match turnIdFromKey key with
            | none => listening
            | some turnId => { listening with point := .handling serial turnId }

def resume : Option Listener :=
  match listener.point with
  | .acquiring none _ => none
  | .acquiring (some true) _ => some { listener with inbox := none, point := .subscribing now }
  | .acquiring (some false) _ => some { listener with point := .retrying (now + refreshInterval) }
  | .retrying due =>
      if listener.stop then some { listener with point := .ended }
      else if due ≤ now then some (listener.loop now)
      else none
  | .subscribing _ =>
      if listener.inbox.isSome then
        some { listener with refresher := listener.refreshLeadership now, point := .listening }
      else none
  | .listening =>
      match listener.inbox with
      | some (item :: rest) => some (listener.consume rest item)
      | _ => none
  | .handling .. => some { listener with point := .listening }
  | .joining exit => some (listener.joined exit)
  | .unsubscribing exit => some { listener with point := .closing exit }
  | .closing exit => some (listener.consumed now exit)
  | .backingOff due =>
      if listener.stop ∨ due ≤ now then
        some { listener with
          backoff := min (listener.backoff * 2) 30
          point := .releasing false true }
      else none
  | .releasing false _ => none
  | .releasing true true => some (listener.loop now)
  | .releasing true false => some { listener with point := .ended }
  | .ended => none

def raise (failure : Failure) : Option Listener :=
  match listener.point with
  | .acquiring .. =>
      if failure = .redisError then some { listener with point := .retrying (now + refreshInterval) }
      else some { listener with point := .ended }
  | .retrying _ => if failure = .cancelled then some { listener with point := .ended } else none
  | .subscribing _ => some (listener.consumed now (some failure))
  | .listening => some { listener with point := .joining (some failure) }
  | .handling .. =>
      if failure = .cancelled then some { listener with point := .joining (some .cancelled) }
      else some { listener with point := .listening }
  | .joining exit => some (listener.joined exit)
  | .unsubscribing exit =>
      if failure = .cancelled then some (listener.consumed now (some .cancelled))
      else some { listener with point := .closing exit }
  | .closing exit =>
      if failure = .cancelled then some (listener.consumed now (some .cancelled))
      else some (listener.consumed now exit)
  | .backingOff _ =>
      if failure = .cancelled then some { listener with point := .releasing false false } else none
  | .releasing _ again =>
      if failure = .redisError then
        some (if again then listener.loop now else { listener with point := .ended })
      else some { listener with point := .ended }
  | .ended => none

/-- The command the listener of this holder awaits. -/
def command (holder : List Char) : Option (StoreCommand Unit (List Char)) :=
  match listener.point with
  | .acquiring none _ => some (.setNx () holder)
  | .releasing false _ => some (.delIfEq () holder)
  | _ => none

/-- Redis has carried the command out. -/
def served (answer : Bool) : Listener :=
  match listener.point with
  | .acquiring .. => { listener with point := .acquiring (some answer) now }
  | .releasing _ again => { listener with point := .releasing true again }
  | _ => listener

/-- Redis has carried SUBSCRIBE out. -/
def subscribe : Option Listener :=
  match listener.point, listener.inbox with
  | .subscribing _, none => some { listener with inbox := some [.subscribed] }
  | _, _ => none

def resumeRefresher : Option Listener :=
  match listener.refresher with
  | .waiting due =>
      if listener.stop then some { listener with refresher := .done }
      else if due ≤ now then some { listener with refresher := .refreshing none now }
      else none
  | .refreshing none _ => none
  | .refreshing (some true) _ => some { listener with refresher := listener.refreshLeadership now }
  | .refreshing (some false) _ => some { listener with refresher := .done }
  | .done => none

def raiseRefresher : Option Listener :=
  if listener.refresher = .done then none else some { listener with refresher := .done }

/-- The subscription gets a message. -/
def hear (item : Item) : Listener :=
  { listener with inbox := listener.inbox.map (· ++ [item]) }

end Listener

/-! ### All of them -/

structure Listeners where
  now : Nat
  leader : ExpiringStore Unit (List Char) Unit
  listeners : List Listener
  published : Nat
  /-- The messages that were handed to `_finalize_lease_expired`. -/
  handled : List Nat

inductive Action
  | tick
  | start
  | stop (id : Nat)
  | crash (id : Nat)
  /-- A key expires; the subscriptions of some may miss the message. -/
  | publish (key : List Char) (missed : List Nat)
  | serve (id : Nat)
  | subscribe (id : Nat)
  | resume (id : Nat)
  | raise (id : Nat) (failure : Failure)
  | serveRefresh (id : Nat)
  | resumeRefresher (id : Nat)
  | raiseRefresher (id : Nat)

namespace Listeners

def init : Listeners := ⟨0, .empty, [], 0, []⟩

variable (world : Listeners)

/-- The listener of a process that has not died. -/
def alive (id : Nat) : Option Listener :=
  world.listeners[id]?.filter fun listener => listener.crashed.isNone

def put (id : Nat) (listener : Listener) : Listeners :=
  { world with listeners := world.listeners.set id listener }

/-- A command of a process, and its answer. -/
def perform (command : StoreCommand Unit (List Char)) : Bool × Listeners :=
  let (answer, leader) := command.run world.leader (world.now + leaderTtl) ()
  (answer, { world with leader := leader })

def takes (listener : Listener) : List Nat :=
  match listener.point with
  | .handling serial _ => [serial]
  | _ => []

/-- A step, where `workerId` is the `worker_id()` of each process. -/
def step (workerId : Nat → List Char) (world : Listeners) : Action → Option Listeners
  | .tick => some { world with now := world.now + 1, leader := world.leader.expire (world.now + 1) }
  | .start =>
      some { world with listeners := world.listeners ++ [{ point := .acquiring none world.now }] }
  | .stop id => do
      let listener ← world.alive id
      some (world.put id { listener with stop := true })
  | .crash id => do
      let listener ← world.alive id
      some (world.put id { listener with crashed := some world.now })
  | .publish key missed =>
      some { world with
        listeners := world.listeners.mapIdx fun id listener =>
          if id ∈ missed then listener else listener.hear (.message world.published key)
        published := world.published + 1 }
  | .serve id => do
      let listener ← world.alive id
      let command ← listener.command (workerId id)
      let (answer, after) := world.perform command
      some (after.put id (listener.served world.now answer))
  | .subscribe id => do
      let listener ← world.alive id
      let subscribed ← listener.subscribe
      some (world.put id subscribed)
  | .resume id => do
      let listener ← world.alive id
      let resumed ← listener.resume world.now
      some { world.put id resumed with handled := world.handled ++ takes resumed }
  | .raise id failure => do
      let listener ← world.alive id
      let raised ← listener.raise world.now failure
      some (world.put id raised)
  | .serveRefresh id => do
      let listener ← world.alive id
      if let .refreshing none _ := listener.refresher then
        let (answer, after) := world.perform (.touchIfEq () (workerId id))
        some (after.put id { listener with refresher := .refreshing (some answer) world.now })
      else none
  | .resumeRefresher id => do
      let listener ← world.alive id
      let resumed ← listener.resumeRefresher world.now
      some (world.put id resumed)
  | .raiseRefresher id => do
      let listener ← world.alive id
      let raised ← listener.raiseRefresher
      some (world.put id raised)

end Listeners
end CodexServer.LeaseListener
