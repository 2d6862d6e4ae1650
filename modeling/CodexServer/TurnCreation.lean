import CodexServer.TurnService
import CodexServer.Library.Transition

/-!
# Turn creation

The USER message of a turn, its TURN_STARTED entry in the journal and its row, as the two surfaces
write them: the web in one transaction, Telegram in two. Any number of requests are at it, and other
sessions work on the rows meanwhile.
-/

open Versioned

namespace CodexServer.TurnCreation

inductive Surface
  | web
  | telegram
deriving DecidableEq

/-- Whose transaction it is. -/
inductive Session
  | request (index : Nat)
  | other (id : Nat)
deriving DecidableEq

structure Prepared where
  chatId : Nat
  userId : Nat
  sidecar : SidecarName
  text : String
  attachments : Nat
  files : Nat
deriving DecidableEq

/-- A row of `messages`, and the request that has stored it. -/
structure UserMessage where
  id : Nat
  chatId : Nat
  text : String
  request : Nat
deriving DecidableEq

/-- A TURN_STARTED entry, and the request that has written it. -/
structure TurnStarted where
  chatId : Nat
  userId : Nat
  turnId : Option Nat
  textLen : Nat
  attachments : Nat
  files : Option Nat
  request : Nat
deriving DecidableEq

/-- What a request does next, with what its transaction has written. -/
inductive Phase
  /-- `_handle_active_turn` -/
  | checking
  /-- `message_service.append` -/
  | appending
  /-- `_create_web_turn` -/
  | webCreating (message : UserMessage)
  | webEmitting (message : UserMessage) (turnId : Nat)
  | webCommitting (message : UserMessage) (entry : TurnStarted)
  /-- `persist_user_turn` -/
  | telegramEmitting (message : UserMessage)
  | telegramCommitting (message : UserMessage) (entry : TurnStarted)
  /-- The second session of `TurnRunner.handle`. -/
  | telegramCreating (messageId : Nat)
  | turnCommitting (messageId : Nat)
  | created
  /-- Steered, or BUSY. -/
  | answered
  | failed
deriving DecidableEq

namespace Phase

def ended : Phase → Bool
  | created | answered | failed => true
  | _ => false

end Phase

structure Request where
  surface : Surface
  prepared : Prepared
  phase : Phase := .checking
  messageId : Option Nat := none

structure System where
  turns : TurnTable Session := .empty
  messages : List UserMessage := []
  journal : List TurnStarted := []
  nextMessage : Nat := 1
  requests : List Request := []

namespace System

variable (system : System) (index : Nat) (request : Request)

def setRequest : System := { system with requests := system.requests.set index request }

def append : System :=
  let message : UserMessage :=
    ⟨system.nextMessage, request.prepared.chatId, request.prepared.text, index⟩
  let phase := match request.surface with
    | .web => Phase.webCreating message
    | .telegram => .telegramEmitting message
  { system.setRequest index { request with phase := phase, messageId := some message.id } with
    nextMessage := system.nextMessage + 1 }

/-- `try_create_starting`, and what the caller goes on with. -/
def create (messageId now : Nat) (created : TurnRow → Phase) : Option System :=
  let prepared := request.prepared
  match TurnService.tryCreateStarting (.request index)
      ⟨prepared.chatId, prepared.userId, messageId, prepared.sidecar⟩ now system.turns with
  | some (some row, table) =>
      some { system.setRequest index { request with phase := created row } with turns := table }
  | some (none, table) =>
      some { system.setRequest index { request with phase := .answered } with turns := table }
  | none => none

def webEntry (turnId : Nat) : TurnStarted :=
  ⟨request.prepared.chatId, request.prepared.userId, some turnId, request.prepared.text.length,
    request.prepared.attachments, some request.prepared.files, index⟩

def telegramEntry : TurnStarted :=
  ⟨request.prepared.chatId, request.prepared.userId, none, request.prepared.text.length,
    request.prepared.attachments, none, index⟩

/-- A commit of what the transaction has written. -/
def commit (messages : List UserMessage) (journal : List TurnStarted) (phase : Phase) : System :=
  { system.setRequest index { request with phase := phase } with
    turns := system.turns.commit (.request index)
    messages := system.messages ++ messages
    journal := system.journal ++ journal }

/-- An exception leaves the session, which rolls back. -/
def raise : System :=
  { system.setRequest index { request with phase := .failed } with
    turns := system.turns.rollback (.request index) }

/-- The next statement of a request. -/
def goOn (now : Nat) (proceeds : Bool) : Option System :=
  match request.phase with
  | .checking =>
      some (system.setRequest index
        { request with phase := if proceeds then .appending else .answered })
  | .appending => some (system.append index request)
  | .webCreating message => system.create index request message.id now fun row =>
      .webEmitting message row.id
  | .webEmitting message turnId =>
      some (system.setRequest index
        { request with phase := .webCommitting message (webEntry index request turnId) })
  | .webCommitting message entry => some (system.commit index request [message] [entry] .created)
  | .telegramEmitting message =>
      some (system.setRequest index
        { request with phase := .telegramCommitting message (telegramEntry index request) })
  | .telegramCommitting message entry =>
      some (system.commit index request [message] [entry] (.telegramCreating message.id))
  | .telegramCreating messageId => system.create index request messageId now fun _ =>
      .turnCommitting messageId
  | .turnCommitting _ => some (system.commit index request [] [] .created)
  | .created | .answered | .failed => none

end System

inductive Action
  | request (surface : Surface) (prepared : Prepared)
  | goOn (index now : Nat) (proceeds : Bool)
  /-- What a request awaits raises. -/
  | raise (index : Nat)
  /-- A statement of another session on a row. -/
  | statement (id turnId : Nat) (update : TurnUpdate)
  | commit (id : Nat)
  | rollback (id : Nat)

def step (system : System) : Action → Option System
  | .request surface prepared =>
      some { system with requests := system.requests ++ [⟨surface, prepared, .checking, none⟩] }
  | .goOn index now proceeds =>
      (system.requests[index]?).bind fun request => system.goOn index request now proceeds
  | .raise index =>
      ((system.requests[index]?).filter fun request => !request.phase.ended).map fun request =>
        system.raise index request
  | .statement id turnId update =>
      (turns.execUpdate system.turns (.other id) turnId update).map fun result =>
        { system with turns := result.2 }
  | .commit id => some { system with turns := system.turns.commit (.other id) }
  | .rollback id => some { system with turns := system.turns.rollback (.other id) }

end CodexServer.TurnCreation
