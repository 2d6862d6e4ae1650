import CodexServer.Control
import CodexServer.SessionStore
import CodexServer.Library.Transition

/-!
# The Telegram handlers

`TurnRunner.handle`, step by step from one await to the next, for any number of messages at a time.
The sessions are in memory, the users, the chats and the turns in the database. Handlers share the
session of their chat and topic, and the active turn of its chat row.
-/

open Transition

namespace CodexServer.TelegramHandler

/-! ### The rows -/

inductive UserRole
  | user
  | admin
deriving DecidableEq

structure UserRow where
  id : Nat
  tgUserId : Nat
  role : UserRole
deriving DecidableEq

/-- The chat and the topic of a message. -/
abbrev TGSessionKey := Int × Option Int

/-- A row of `chats` whose source is Telegram. -/
structure ChatRow where
  id : Nat
  userId : Nat
  key : TGSessionKey
deriving DecidableEq

structure Directory where
  users : List UserRow := []
  chats : List ChatRow := []

namespace Directory

variable (directory : Directory)

def userByTg? (tgUserId : Nat) : Option UserRow :=
  directory.users.find? fun user => user.tgUserId = tgUserId

def chatByKey? (key : TGSessionKey) : Option ChatRow :=
  directory.chats.find? fun chat => chat.key = key

def chatById? (id : Nat) : Option ChatRow := directory.chats.find? fun chat => chat.id = id

/-- `UserService.get_or_create_by_tg`, for the settings' `TG_ADMIN_USER_IDS`. -/
def getOrCreateByTg (adminUserIds : List Nat) (tgUserId : Nat) : UserRow × Directory :=
  match directory.userByTg? tgUserId with
  | some user => (user, directory)
  | none =>
      let user : UserRow := ⟨directory.users.length, tgUserId,
        if tgUserId ∈ adminUserIds then .admin else .user⟩
      (user, { directory with users := directory.users ++ [user] })

/-- `ChatService.get_or_create_for_tg`. A chat row that exists keeps its owner. -/
def getOrCreateForTg (userId : Nat) (key : TGSessionKey) : ChatRow × Directory :=
  match directory.chatByKey? key with
  | some chat => (chat, directory)
  | none =>
      let chat : ChatRow := ⟨directory.chats.length, userId, key⟩
      (chat, { directory with chats := directory.chats ++ [chat] })

def setRole (userId : Nat) (role : UserRole) : Directory :=
  { directory with
    users := directory.users.map fun user =>
      if user.id = userId then { user with role := role } else user }

end Directory

/-- `SidecarName.normalize` -/
def normalize (sidecar : Option SidecarName) : SidecarName := sidecar.getD .admin

/-- `SidecarName.ADMIN if is_admin else SidecarName.GUEST` -/
def sidecarOf (isAdmin : Bool) : SidecarName := if isAdmin then .admin else .guest

/-- `TurnService.get_active_for_chat` -/
def getActiveForChat (chatId : Nat) (turns : List TurnRow) : Option TurnRow :=
  turns.find? fun row => row.chatId = chatId && row.status.isActive

/-- `TurnService.try_create_starting` and the commit. -/
def tryCreateStarting (payload : TurnCreate) (now : Nat) (turns : List TurnRow) :
    Option (TurnRow × List TurnRow) :=
  match getActiveForChat payload.chatId turns with
  | some _ => none
  | none =>
      let row := (TurnRow.starting turns.length payload now).setStreamKey
      some (row, turns ++ [row])

def updateTurn (turnId : Nat) (update : TurnRow → Option TurnRow) (turns : List TurnRow) :
    List TurnRow :=
  turns.map fun row => if row.id = turnId then (update row).getD row else row

/-! ### The handlers -/

structure Message where
  fromUserId : Nat
  chatId : Int
  /-- `None` for what is not a message of a topic. -/
  threadId : Option Int
deriving DecidableEq

def Message.key (message : Message) : TGSessionKey := (message.chatId, message.threadId)

/-- The rows of the sender and of the chat and topic of a message, made if they are not there. -/
def Directory.rowsOf (directory : Directory) (adminUserIds : List Nat) (message : Message) :
    UserRow × ChatRow × Directory :=
  let (user, withUser) := directory.getOrCreateByTg adminUserIds message.fromUserId
  let (chat, withChat) := withUser.getOrCreateForTg user.id message.key
  (user, chat, withChat)

/-- The fields of a `PreparedTurn` that decide what is done with it. -/
structure PreparedTurn where
  text : String
  attachments : List String
  uploadIds : List Nat
  replyToMessageId : Option Nat
deriving DecidableEq

/-- Who wants the session: a turn, or `on_codex_usage`, which sends nothing. -/
inductive Purpose
  | turn (prepared : PreparedTurn)
  | codexUsage
deriving DecidableEq

/-- Where a handler stands, with the variables that it still needs. -/
inductive Phase
  /-- Before its own transaction. -/
  | received
  | preparing (dbUserId dbChatId : Nat)
  /-- In `get_or_open`. -/
  | claiming (purpose : Purpose)
  | bootstrapping (purpose : Purpose) (attempt : Nat)
  | committing (purpose : Purpose) (attempt : Nat) (boot : SessionBootstrap)
  | waiting (purpose : Purpose) (attempt : Nat)
  /-- In `reserve_turn`. -/
  | reserving (prepared : PreparedTurn) (session : ChatSession)
  /-- In `_handle_active_tg_turn`. -/
  | checking (prepared : PreparedTurn) (session : ChatSession)
  | steering (prepared : PreparedTurn) (session : ChatSession) (active : TurnRow)
  | interrupting (prepared : PreparedTurn) (session : ChatSession) (active : TurnRow)
  /-- Before `try_create_starting`. -/
  | creating (prepared : PreparedTurn) (session : ChatSession)
  /-- In `_run_locked`, before and after `turn/start`. -/
  | opening (session : ChatSession) (turnId : Nat)
  | running (turnId : Nat)
  | ended
deriving DecidableEq

structure Handler where
  message : Message
  phase : Phase
deriving DecidableEq

inductive SubmissionKind
  | newTurn
  | steer
deriving DecidableEq

/-- A message on its way to a sidecar, with the rows of its sender and of its chat at that time. -/
structure Submission where
  kind : SubmissionKind
  sender : Nat
  /-- The user and the chat row that the turn runs with. -/
  userId : Nat
  chatId : Nat
  sidecar : SidecarName
  senderRow : Option UserRow
  chatRow : Option ChatRow
deriving DecidableEq

/-- The turn runs with the sender's own user id, in a chat row that the sender owns, and on the
admin sidecar only for a sender who is an admin. -/
def Submission.Authorized (submission : Submission) : Prop :=
  ∃ user ∈ submission.senderRow, ∃ chat ∈ submission.chatRow,
    submission.userId = user.id ∧ chat.userId = user.id ∧
      (submission.sidecar = .admin → user.role = .admin)

instance (submission : Submission) : Decidable submission.Authorized :=
  inferInstanceAs (Decidable (∃ user ∈ submission.senderRow, ∃ chat ∈ submission.chatRow, _ ∧ _))

structure World where
  directory : Directory := {}
  turns : List TurnRow := []
  store : SessionStore TGSessionKey Nat := {}
  handlers : List Handler := []
  submissions : List Submission := []

namespace World

variable (world : World)

def setPhase (handler : Nat) (phase : Phase) : World :=
  { world with handlers := world.handlers.modify handler fun item => { item with phase := phase } }

def start (message : Message) (phase : Phase) : World :=
  { world with handlers := world.handlers ++ [⟨message, phase⟩] }

def submit (kind : SubmissionKind) (message : Message) (userId chatId : Nat)
    (sidecar : SidecarName) : World :=
  { world with
    submissions := world.submissions ++ [{
      kind := kind
      sender := message.fromUserId
      userId := userId
      chatId := chatId
      sidecar := sidecar
      senderRow := world.directory.userByTg? message.fromUserId
      chatRow := world.directory.chatById? chatId }] }

end World

inductive Action
  | message (message : Message)
  | codexUsage (message : Message)
  /-- The handler's own transaction. -/
  | resolve (handler : Nat)
  /-- `prepare_turn`; `none` is `UploadTooLarge`. -/
  | prepare (handler : Nat) (prepared : Option PreparedTurn)
  | claimSlot (handler : Nat)
  /-- `_bootstrap` up to its commit. -/
  | bootstrap (handler : Nat)
  | fulfilSlot (handler : Nat)
  | join (handler : Nat)
  | reserveTurn (handler : Nat) (admitted : Bool)
  /-- `get_active_for_chat` and `reconcile_if_stale`. -/
  | checkActive (handler : Nat) (now : Nat)
  | steer (handler : Nat) (accepted : Bool)
  | interrupt (handler : Nat) (interrupted : Bool)
  | createTurn (handler : Nat) (userMessageId now : Nat)
  /-- `hold_turn_locks` and `open_codex_turn`; `turn/start` is sent if they succeed. -/
  | openTurn (handler : Nat) (outcome : LockAcquireOutcome) (now : Nat)
  | markRunning (handler : Nat) (threadId codexTurnId : String) (now : Nat)
  | finish (handler : Nat) (status : TerminalStatus) (errorCode errorDetail : Option String)
      (now : Nat)
  /-- An exception, or the cancellation of the task, at the await where the handler stands. -/
  | raise (handler : Nat)
  | cancel (handler : Nat)
  /-- Somebody else finalises a turn. -/
  | finalizeOnce (turnId : Nat) (status : TerminalStatus) (errorCode errorDetail : Option String)
      (now : Nat)
  /-- `/reset` -/
  | reset (key : TGSessionKey)
  | setRole (userId : Nat) (role : UserRole)
  /-- The process starts again. -/
  | restart

section

variable (adminUserIds : List Nat) (world : World)

/-- What follows on `get_or_open`. -/
def proceed (purpose : Purpose) (session : ChatSession) : Phase :=
  match purpose with
  | .turn prepared => .reserving prepared session
  | .codexUsage => .ended

/-- What `_handle_active_tg_turn` does with an active turn. -/
def handleActive (prepared : PreparedTurn) (session : ChatSession) (active : TurnRow) : Phase :=
  if active.codexTurnId = none then .ended
  else if prepared.attachments ≠ [] ∨ prepared.uploadIds ≠ [] ∨
      prepared.replyToMessageId ≠ none then .ended
  else if prepared.text = "" then .interrupting prepared session active
  else .steering prepared session active

/-- The failure of what a handler awaits, when it is opening a session. -/
def failAttempt (handler : Handler) : SessionStore TGSessionKey Nat :=
  match handler.phase with
  | .bootstrapping _ attempt | .committing _ attempt _ =>
      world.store.failSlot handler.message.key attempt
  | _ => world.store

/-- A cancellation leaves the future of a creator as it is, and cancels that of a waiter. -/
def cancelAttempt (handler : Handler) : SessionStore TGSessionKey Nat :=
  match handler.phase with
  | .waiting _ attempt => world.store.cancelWaiter attempt
  | _ => world.store

/-- The next step of a handler. -/
def advance (id : Nat) (handler : Handler) : Action → Option World
  | .resolve _ =>
      match handler.phase with
      | .received =>
          let (user, chat, directory) := world.directory.rowsOf adminUserIds handler.message
          some ({ world with directory := directory }.setPhase id (.preparing user.id chat.id))
      | _ => none
  | .prepare _ prepared =>
      match handler.phase, prepared with
      | .preparing _ _, some prepared =>
          some (world.setPhase id
            (if prepared.text = "" ∧ prepared.attachments = [] then .ended
            else .claiming (.turn prepared)))
      | .preparing _ _, none => some (world.setPhase id .ended)
      | _, _ => none
  | .claimSlot _ =>
      match handler.phase with
      | .claiming purpose =>
          match world.store.claimSlot handler.message.key with
          | .joined attempt => some (world.setPhase id (.waiting purpose attempt))
          | .created attempt =>
              some ({ world with
                store := world.store.insertSlot handler.message.key handler.message.fromUserId
              }.setPhase id (.bootstrapping purpose attempt))
          | .raised => some (world.setPhase id .ended)
      | _ => none
  | .bootstrap _ =>
      match handler.phase with
      | .bootstrapping purpose attempt =>
          let (user, chat, directory) := world.directory.rowsOf adminUserIds handler.message
          some ({ world with directory := directory }.setPhase id
            (.committing purpose attempt ⟨user.id, chat.id, user.role = UserRole.admin⟩))
      | _ => none
  | .fulfilSlot _ =>
      match handler.phase with
      | .committing purpose attempt boot =>
          match world.store.fulfilSlot attempt (SessionStore.buildSession boot) with
          | some store =>
              some ({ world with store := store }.setPhase id
                (proceed purpose (SessionStore.buildSession boot)))
          | none => some (world.setPhase id .ended)
      | _ => none
  | .join _ =>
      match handler.phase with
      | .waiting purpose attempt =>
          match world.store.future? attempt with
          | some (.result session) => some (world.setPhase id (proceed purpose session))
          | some .exception | some .cancelled => some (world.setPhase id .ended)
          | some .pending | none => none
      | _ => none
  | .reserveTurn _ admitted =>
      match handler.phase with
      | .reserving prepared session =>
          some (world.setPhase id (if admitted then .checking prepared session else .ended))
      | _ => none
  | .checkActive _ now =>
      match handler.phase with
      | .checking prepared session =>
          match getActiveForChat session.dbChatId world.turns with
          | none => some (world.setPhase id (.creating prepared session))
          | some active =>
              if now - active.heartbeatAt < Recovery.staleThreshold then
                some (world.setPhase id (handleActive prepared session active))
              else
                some ({ world with
                  turns := updateTurn active.id (fun row => row.finalizeOnce .failed
                    (some "orphan_heartbeat") (some "no heartbeat for >120.0s") now) world.turns
                }.setPhase id (.creating prepared session))
      | _ => none
  | .steer _ accepted =>
      match handler.phase with
      | .steering prepared session active =>
          some ((world.submit .steer handler.message active.userId session.dbChatId
            (normalize active.sidecar)).setPhase id
              (if accepted then .ended else .interrupting prepared session active))
      | _ => none
  | .interrupt _ interrupted =>
      match handler.phase with
      | .interrupting prepared session _ =>
          some (world.setPhase id (if interrupted then .creating prepared session else .ended))
      | _ => none
  | .createTurn _ userMessageId now =>
      match handler.phase with
      | .creating _ session =>
          match tryCreateStarting ⟨session.dbChatId, session.dbUserId, userMessageId,
              sidecarOf session.isAdmin⟩ now world.turns with
          | some (row, turns) =>
              some ({ world with turns := turns }.setPhase id (.opening session row.id))
          | none => some (world.setPhase id .ended)
      | _ => none
  | .openTurn _ outcome now =>
      match handler.phase with
      | .opening session turnId =>
          if outcome = .acquired then
            some ((world.submit .newTurn handler.message session.dbUserId session.dbChatId
              (sidecarOf session.isAdmin)).setPhase id (.running turnId))
          else
            some ({ world with
              turns := updateTurn turnId (fun row => row.finalizeOnce .failed
                (some CodexErrorCode.turnBusy) (some ("lock unavailable: " ++ outcome.value)) now)
                world.turns
            }.setPhase id .ended)
      | _ => none
  | .markRunning _ threadId codexTurnId now =>
      match handler.phase with
      | .running turnId =>
          some { world with
            turns := updateTurn turnId (fun row => row.markRunning threadId codexTurnId now)
              world.turns }
      | _ => none
  | .finish _ status errorCode errorDetail now =>
      match handler.phase with
      | .running turnId =>
          some ({ world with
            turns := updateTurn turnId
              (fun row => row.finalizeOnce status errorCode errorDetail now) world.turns
          }.setPhase id .ended)
      | _ => none
  | .raise _ =>
      if handler.phase = .ended then none
      else some ({ world with store := failAttempt world handler }.setPhase id .ended)
  | .cancel _ =>
      if handler.phase = .ended then none
      else some ({ world with store := cancelAttempt world handler }.setPhase id .ended)
  | _ => none

/-- The handler that an action is a step of. -/
def Action.handler? : Action → Option Nat
  | .resolve handler | .prepare handler _ | .claimSlot handler | .bootstrap handler
  | .fulfilSlot handler | .join handler | .reserveTurn handler _ | .checkActive handler _
  | .steer handler _ | .interrupt handler _ | .createTurn handler _ _ | .openTurn handler _ _
  | .markRunning handler _ _ _ | .finish handler _ _ _ _ | .raise handler | .cancel handler =>
      some handler
  | _ => none

def step (action : Action) : Option World :=
  match action.handler? with
  | some id =>
      (world.handlers[id]?).bind fun handler => advance adminUserIds world id handler action
  | none =>
      match action with
      | .message message => some (world.start message .received)
      | .codexUsage message =>
          if message.fromUserId ∈ adminUserIds then
            some (world.start message (.claiming .codexUsage))
          else none
      | .finalizeOnce turnId status errorCode errorDetail now =>
          some { world with
            turns := updateTurn turnId
              (fun row => row.finalizeOnce status errorCode errorDetail now) world.turns }
      | .reset key => some { world with store := world.store.pop key }
      | .setRole userId role => some { world with directory := world.directory.setRole userId role }
      | .restart => some { world with store := {}, handlers := [] }
      | _ => none

end
end CodexServer.TelegramHandler
