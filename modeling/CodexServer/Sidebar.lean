import CodexServer.Activity
import Mathlib.Data.Finset.Basic

/-!
# The sidebar

The web client keeps the chats that are busy in a set. Each event of the user's activity stream adds
its chat or takes it out; the turn it is about is not looked at.
-/

namespace CodexServer.Activity

def ActivityEvent.userId : ActivityEvent → Nat
  | turnStarted userId _ _ | turnEnded userId _ _ => userId

/-- The frame that the client is sent. -/
inductive ChatActivityFrame
  | turnStarted (chatId turnId : Nat)
  | turnEnded (chatId turnId : Nat)
deriving DecidableEq

/-- `_chat_activity_to_pb` -/
def chatActivityToPb : ActivityEvent → ChatActivityFrame
  | .turnStarted _ chatId turnId => .turnStarted chatId turnId
  | .turnEnded _ chatId turnId => .turnEnded chatId turnId

/-- What the subscription does with a frame. -/
def hear (busyChats : Finset Nat) : ChatActivityFrame → Finset Nat
  | .turnStarted chatId _ => insert chatId busyChats
  | .turnEnded chatId _ => busyChats.erase chatId

/-- The frames of a user's channel, in the order of their delivery. -/
def frames (userId : Nat) (delivered : List ActivityEvent) : List ChatActivityFrame :=
  (delivered.filter fun event => event.userId = userId).map chatActivityToPb

def busyChats (userId : Nat) (delivered : List ActivityEvent) : Finset Nat :=
  (frames userId delivered).foldl hear ∅

end CodexServer.Activity
