import CodexServer.Library.Transition
import Mathlib.Data.List.Sort

/-!
# The messages of a chat, page by page

`MessageRPC.list_messages` and what it reads. A client that scrolls asks for the page before the
smallest id it has, while others append and delete; each call reads one state of the table. The
contents of the messages are left out.
-/

namespace CodexServer.MessageList

structure Message where
  id : Int
  chatId : Int
deriving DecidableEq

/-- The table `messages`, with its primary key. -/
structure Table where
  rows : List Message
  unique : (rows.map Message.id).Nodup

namespace Table

variable (table : Table)

/-- `append`; a key that is taken is refused. -/
def append (message : Message) : Option Table :=
  if h : message.id ∈ table.rows.map Message.id then none
  else some ⟨message :: table.rows, List.nodup_cons.mpr ⟨h, table.unique⟩⟩

/-- `delete_many` -/
def deleteMany (ids : List Int) : Table :=
  ⟨table.rows.filter fun message => !ids.contains message.id,
    (List.filter_sublist.map Message.id).nodup table.unique⟩

/-- What `MessageService.list` selects: the rows of the chat before the cursor. -/
def selected (chatId : Int) (beforeId : Option Int) : List Message :=
  table.rows.filter fun message =>
    message.chatId = chatId && beforeId.all fun before => decide (message.id < before)

/-- `MessageService.list` -/
def list (chatId : Int) (limit : Nat) (beforeId : Option Int) : List Message :=
  let descending :=
    (table.selected chatId beforeId).insertionSort fun one other => other.id ≤ one.id
  (descending.take limit).reverse

end Table

/-- The rows of `chats` with their owners, and the messages. -/
structure Database where
  owner : Int → Option Int
  messages : Table

/-- `_DEFAULT_LIMIT` and `_MAX_LIMIT` -/
def defaultLimit : Int := 100

def maxLimit : Int := 500

/-- `_resolve_limit` -/
def resolveLimit (limit : Int) : Nat :=
  (min (if 0 < limit then limit else defaultLimit) maxLimit).toNat

/-- `list_messages`, for a user. -/
def listMessages (db : Database) (userId chatId limit : Int) (beforeId : Option Int) :
    Except String (List Message) :=
  match db.owner chatId with
  | some owner =>
      if owner = userId then .ok (db.messages.list chatId (resolveLimit limit) beforeId)
      else .error s!"chat {chatId} not found"
  | none => .error s!"chat {chatId} not found"

/-! ### A client that scrolls -/

structure Scroll where
  db : Database
  /-- The pages received, the last one first. -/
  pages : List (List Message) := []
  /-- The last page was shorter than its limit. -/
  ended : Bool := false

namespace Scroll

variable (scroll : Scroll)

/-- The pages prepended in call order. -/
def received : List Message := scroll.pages.flatten

def smallestId : Option Int := (scroll.received.map Message.id).min?

def setMessages (table : Table) : Scroll :=
  { scroll with db := { scroll.db with messages := table } }

def receive (limit : Int) (page : List Message) : Scroll :=
  { scroll with pages := page :: scroll.pages, ended := page.length < resolveLimit limit }

end Scroll

inductive Action
  | append (message : Message)
  | delete (ids : List Int)
  /-- The client calls, with a limit. -/
  | call (limit : Int)
deriving DecidableEq

def step (userId chatId : Int) (scroll : Scroll) : Action → Option Scroll
  | .append message => (scroll.db.messages.append message).map scroll.setMessages
  | .delete ids => some (scroll.setMessages (scroll.db.messages.deleteMany ids))
  | .call limit =>
      if scroll.ended then none
      else
        match listMessages scroll.db userId chatId limit scroll.smallestId with
        | .ok page => some (scroll.receive limit page)
        | .error _ => none

end CodexServer.MessageList
