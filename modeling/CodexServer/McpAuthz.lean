import CodexServer.Notes
import CodexServer.Notification
import CodexServer.TelegramHandler
import CodexServer.Library.Transition

/-!
# Who a tool acts for

A turn is opened with a token that names its user, its chat and its sidecar. The sidecar keeps the
token with a thread from the time it loads the thread, and sends it with each call of a tool. The
server serves the call for the user that the token names, with the role that is in his row by then.
-/

namespace CodexServer.McpAuthz

open TelegramHandler (UserRole sidecarOf)

/-! ### Tokens -/

abbrev Payload := List (String × Json)

def issuer : String := "codex-server"

/-- `SidecarName.value` -/
def sidecarValue : SidecarName → String
  | .admin => "admin"
  | .guest => "guest"

/-- What `issue` signs. -/
def payloadOf (userId chatId : Nat) (sidecar : SidecarName) (iat : Nat) : Payload :=
  [("iss", .string issuer), ("user_id", .number userId), ("chat_id", .number chatId),
    ("sidecar", .string (sidecarValue sidecar)), ("iat", .number iat)]

/-- PyJWT with the secret, the algorithm and the issuer of the server, and pydantic. -/
structure Jwt (Token : Type) where
  encode : Payload → Token
  /-- At a time, with the text of an `InvalidTokenError`. -/
  decode : Nat → Token → Except String Payload
  /-- The number that pydantic takes a text for. -/
  intOfText : String → Option Int
  /-- The text of a `ValidationError`. -/
  complaint : Payload → String
  /-- A token of the server itself is accepted, unless it is from the future. -/
  decode_encode : ∀ {userId chatId sidecar iat now}, iat ≤ now →
    decode now (encode (payloadOf userId chatId sidecar iat)) =
      .ok (payloadOf userId chatId sidecar iat)

inductive McpAuthzError
  | invalidAuthz (text : String)
  | malformedClaims (text : String)
  | unknownUser (userId : Int)
deriving DecidableEq

/-- `str(exc)` -/
def McpAuthzError.text : McpAuthzError → String
  | invalidAuthz text => "invalid_authz: " ++ text
  | malformedClaims text => "malformed_claims: " ++ text
  | unknownUser userId => "unknown_user: " ++ toString userId

structure McpAuthzClaims where
  userId : Int
  chatId : Int
  sidecar : SidecarName
  iat : Int
deriving DecidableEq

inductive McpAuthzRole
  | admin
  | user
deriving DecidableEq

structure McpIdentity where
  userId : Nat
  chatId : Int
  role : McpAuthzRole
deriving DecidableEq

namespace Jwt

variable {Token : Type} (jwt : Jwt Token)

def issue (userId chatId : Nat) (sidecar : SidecarName) (iat : Nat) : Token :=
  jwt.encode (payloadOf userId chatId sidecar iat)

/-- A field of the type `int`. -/
def int : Json → Option Int
  | .bool value => some (if value then 1 else 0)
  | .number value => if value.den = 1 then some value.num else none
  | .string text => jwt.intOfText text
  | .null | .array _ | .object _ => none

def sidecarName : Json → Option SidecarName
  | .string text =>
      if text = "admin" then some .admin else if text = "guest" then some .guest else none
  | _ => none

def claimNames : List String := ["user_id", "chat_id", "sidecar", "iat"]

/-- `McpAuthzClaims.model_validate`; a field too many is refused. -/
def modelValidate (payload : Payload) : Option McpAuthzClaims := do
  let userId ← (payload.lookup "user_id").bind jwt.int
  let chatId ← (payload.lookup "chat_id").bind jwt.int
  let sidecar ← (payload.lookup "sidecar").bind sidecarName
  let iat ← (payload.lookup "iat").bind jwt.int
  if payload.all fun field => claimNames.contains field.1 then some ⟨userId, chatId, sidecar, iat⟩
  else none

def verify (now : Nat) (token : Token) : Except McpAuthzError McpAuthzClaims :=
  match jwt.decode now token with
  | .error text => .error (.invalidAuthz text)
  | .ok payload =>
      let claims := payload.filter fun field => field.1 ≠ "iss"
      match jwt.modelValidate claims with
      | some claims => .ok claims
      | none => .error (.malformedClaims (jwt.complaint claims))

end Jwt

abbrev Roles := Nat → Option UserRole

/-- `UserService.get`: the id of the row and its role. -/
def getUser (roles : Roles) (userId : Int) : Option (Nat × UserRole) :=
  if 0 ≤ userId then (roles userId.toNat).map fun role => (userId.toNat, role) else none

def isAdmin (role : UserRole) (sidecar : SidecarName) : Bool := role = .admin && sidecar = .admin

/-- `resolve` -/
def resolve (roles : Roles) (claims : McpAuthzClaims) : Except McpAuthzError McpIdentity :=
  match getUser roles claims.userId with
  | none => .error (.unknownUser claims.userId)
  | some (userId, role) =>
      .ok ⟨userId, claims.chatId, if isAdmin role claims.sidecar then .admin else .user⟩

/-! ### The tools -/

inductive Tool
  | noteSave (title body : String) (tags : Option (List String)) (noteId : Option Nat)
  | noteSearch (query : String) (tags : Option (List String)) (limit : Nat)
  | noteList (tags : Option (List String)) (limit : Nat)
  /-- `list_errors` and `get_error` -/
  | errors
  | showImage

inductive ToolResult (ρ : Type)
  | notes (response : Notes.Response ρ)
  /-- What Bugsink says. -/
  | errors
  /-- The image, or that the path is not to be trusted. -/
  | image

section

variable {Token ρ : Type} (jwt : Jwt Token) (database : Notes.Database ρ) (now : Nat) (roles : Roles)

/-- `require_identity`, with the text of a `ToolError`. -/
def requireIdentity (header : Option Token) : Except String McpIdentity :=
  match header with
  | none => .error "X-Codex-Authz header missing: tool called outside a Codex thread"
  | some token =>
      ((jwt.verify now token).bind (resolve roles)).mapError McpAuthzError.text

/-- A note tool, in the transaction of its own. -/
def callNotes (notes : Notes.State) (supplied : Notes.Supplied) (identity : McpIdentity)
    (request : Notes.Request) : Option (Except String (ToolResult ρ) × Notes.State) :=
  (Notes.call database notes ⟨identity.userId, supplied, request⟩).map fun done =>
    (.ok (.notes done.1), done.2)

/-- A tool with the header of the request that calls it. -/
def callTool (notes : Notes.State) (supplied : Notes.Supplied) (header : Option Token) (tool : Tool) :
    Option (Except String (ToolResult ρ) × Notes.State) :=
  match requireIdentity jwt now roles header with
  | .error text => some (.error text, notes)
  | .ok identity =>
      match tool with
      | .noteSave title body tags noteId =>
          callNotes database notes supplied identity (.noteSave title body tags noteId)
      | .noteSearch query tags limit =>
          callNotes database notes supplied identity (.noteSearch query tags limit)
      | .noteList tags limit => callNotes database notes supplied identity (.noteList tags limit)
      | .errors =>
          if identity.role = .admin then some (.ok .errors, notes)
          else some (.error "error tools are available to the administrator only", notes)
      | .showImage => some (.ok .image, notes)

end

/-! ### Turns and threads -/

/-- Where a turn awaits, from `open_codex_turn` to its end. -/
inductive Point
  | loading
  /-- The key of the quarantine is read. -/
  | checking (stored : String)
  /-- The preferences are read, and the client connects. -/
  | connecting (initial : Option String)
  | resuming (threadId : String)
  /-- `reset_thread` calls `on_thread_change`. -/
  | resetting
  | starting
  /-- `_open_new_thread` calls `on_thread_change`. -/
  | persisting (threadId : String)
  | running
  | closed
deriving DecidableEq

inductive Request
  | resume (threadId : String)
  | start
deriving DecidableEq

inductive Reply
  | resumed
  | started (threadId : String)
  /-- The thread or the method is not known. -/
  | notFound
  | refused
deriving DecidableEq

structure Opening (Token : Type) where
  chatId : Nat
  userId : Nat
  isAdmin : Bool
  seedHistory : Bool
  point : Point := .loading
  /-- In the configuration of the client's threads. -/
  token : Option Token := none
  threadId : Option String := none
  /-- On its way to the sidecar, also when the client is closed. -/
  request : Option Request := none
  reply : Option Reply := none
  /-- `turn/start` has been told once that there is no such thread. -/
  retried : Bool := false

def Opening.sidecar {Token : Type} (opening : Opening Token) : SidecarName :=
  sidecarOf opening.isAdmin

/-- A thread that a sidecar has started. -/
structure Thread (Token : Type) where
  id : String
  sidecar : SidecarName
  /-- The sidecar still has it. -/
  stored : Bool := true
  /-- The header of its calls, while it is loaded. -/
  header : Option Token

structure Chat where
  codexThreadId : Option String

structure Deployment (Token : Type) where
  now : Nat := 0
  roles : Roles
  chats : Nat → Option Chat
  openings : List (Opening Token) := []
  threads : List (Thread Token) := []
  notes : Notes.State

inductive Action
  | tick
  /-- The row of a user is written, or deleted. -/
  | setUser (userId : Nat) (role : Option UserRole)
  | createChat (chatId : Nat)
  | deleteChat (chatId : Nat)
  /-- `/new`, a reset of the session, or `auto_reset_thread`. -/
  | clearThread (chatId : Nat)
  | openTurn (chatId userId : Nat) (isAdmin seedHistory : Bool)
  | load (id : Nat)
  | check (id : Nat) (quarantined : Bool)
  | connect (id : Nat)
  /-- The sidecar does what it is asked to, and replies. -/
  | serve (id : Nat) (reply : Reply)
  | receive (id : Nat)
  /-- `on_thread_change` returns; its `UPDATE` may have failed. -/
  | changed (id : Nat) (committed : Bool)
  /-- `turn/start` is told that there is no such thread. -/
  | lose (id : Nat)
  /-- An await raises, or the turn is over. -/
  | close (id : Nat)
  /-- The sidecar unloads a thread, or restarts. -/
  | unload (threadId : String)
  | forget (threadId : String)
  | callTool (threadId : String) (supplied : Notes.Supplied) (tool : Tool)

namespace Thread

variable {Token : Type} (thread : Thread Token)

/-- `thread/resume`: a thread that is loaded already keeps its configuration. -/
def resume (token : Token) : Thread Token :=
  { thread with header := some (thread.header.getD token) }

def unload : Thread Token := { thread with header := none }

def forget : Thread Token := { thread with header := none, stored := false }

end Thread

def setThread {Token : Type} (threadId : String) (change : Thread Token → Thread Token)
    (threads : List (Thread Token)) : List (Thread Token) :=
  threads.map fun thread => if thread.id = threadId then change thread else thread

/-- Only a thread that may be used again is looked up in the quarantine. -/
def afterLoading (threadReuseEnabled : Bool) : Option String → Point
  | some threadId => if threadReuseEnabled then .checking threadId else .connecting none
  | none => .connecting none

namespace Opening

variable {Token : Type} (opening : Opening Token)

def send (point : Point) (request : Request) : Opening Token :=
  { opening with point := point, request := some request, reply := none }

/-- The client is made and has connected, and `ensure_thread` begins. -/
def connected (jwt : Jwt Token) (initial : Option String) (now : Nat) : Opening Token :=
  let opening := { opening with
    token := some (jwt.issue opening.userId opening.chatId opening.sidecar now)
    threadId := initial }
  if opening.seedHistory then
    match initial with
    | some threadId => opening.send (.resuming threadId) (.resume threadId)
    | none => opening.send .starting .start
  else { opening with point := .running }

def receive : Option (Opening Token) :=
  match opening.point, opening.reply with
  | .resuming _, some .resumed => some { opening with point := .running }
  | .resuming _, some .notFound => some { opening with point := .resetting, threadId := none }
  | .starting, some (.started threadId) =>
      some { opening with point := .persisting threadId, threadId := some threadId }
  | .resuming _, some _ | .starting, some _ => some { opening with point := .closed }
  | _, _ => none

end Opening

namespace Deployment

section

variable {Token : Type} (deployment : Deployment Token)

/-- `UPDATE chats SET codex_thread_id` -/
def setCodexThreadId (chatId : Nat) (threadId : Option String) : Deployment Token :=
  { deployment with
    chats := Function.update deployment.chats chatId
      ((deployment.chats chatId).map fun _ => ⟨threadId⟩) }

def setOpening (id : Nat) (opening : Opening Token) : Deployment Token :=
  { deployment with openings := deployment.openings.set id opening }

/-- What a sidecar makes of a request. It starts a thread under an id that is new. -/
def served (sidecar : SidecarName) (token : Token) : Request → Reply → Option (List (Thread Token))
  | .resume threadId, .resumed =>
      if deployment.threads.any fun thread =>
          thread.id = threadId && thread.sidecar = sidecar && thread.stored then
        some (setThread threadId (Thread.resume · token) deployment.threads)
      else none
  | .start, .started threadId =>
      if deployment.threads.any fun thread => thread.id = threadId then none
      else some (deployment.threads ++ [⟨threadId, sidecar, true, some token⟩])
  | .resume _, .notFound | .resume _, .refused | .start, .refused => some deployment.threads
  | _, _ => none

/-- The header of the calls from a thread. -/
def header (threadId : String) : Option Token :=
  (deployment.threads.find? fun thread => thread.id = threadId).bind Thread.header

end

section

variable {Token ρ : Type} (jwt : Jwt Token) (database : Notes.Database ρ) (threadReuseEnabled : Bool)
  (deployment : Deployment Token)

def step : Action → Option (Deployment Token)
  | .tick => some { deployment with now := deployment.now + 1 }
  | .setUser userId role =>
      some { deployment with roles := Function.update deployment.roles userId role }
  | .createChat chatId =>
      if (deployment.chats chatId).isSome then none
      else some { deployment with chats := Function.update deployment.chats chatId (some ⟨none⟩) }
  | .deleteChat chatId =>
      some { deployment with chats := Function.update deployment.chats chatId none }
  | .clearThread chatId => some (deployment.setCodexThreadId chatId none)
  | .openTurn chatId userId isAdmin seedHistory =>
      some { deployment with
        openings := deployment.openings ++ [{ chatId, userId, isAdmin, seedHistory }] }
  | .load id => do
      let opening ← deployment.openings[id]?
      match opening.point with
      | .loading =>
          let stored := (deployment.chats opening.chatId).bind Chat.codexThreadId
          some (deployment.setOpening id
            { opening with point := afterLoading threadReuseEnabled stored })
      | _ => none
  | .check id quarantined => do
      let opening ← deployment.openings[id]?
      match opening.point with
      | .checking threadId => some (deployment.setOpening id
          { opening with point := .connecting (if quarantined then none else some threadId) })
      | _ => none
  | .connect id => do
      let opening ← deployment.openings[id]?
      match opening.point with
      | .connecting initial =>
          some (deployment.setOpening id (opening.connected jwt initial deployment.now))
      | _ => none
  | .serve id reply => do
      let opening ← deployment.openings[id]?
      let request ← opening.request
      let token ← opening.token
      let threads ← deployment.served opening.sidecar token request reply
      some { deployment.setOpening id { opening with request := none, reply := some reply } with
        threads }
  | .receive id => do
      let opening ← deployment.openings[id]?
      let opening ← opening.receive
      some (deployment.setOpening id opening)
  | .changed id committed => do
      let opening ← deployment.openings[id]?
      match opening.point with
      | .resetting =>
          let deployment := deployment.setOpening id (opening.send .starting .start)
          some (if committed then deployment.setCodexThreadId opening.chatId none else deployment)
      | .persisting threadId =>
          let deployment := deployment.setOpening id { opening with point := .running }
          some (if committed then deployment.setCodexThreadId opening.chatId (some threadId)
            else deployment)
      | _ => none
  | .lose id => do
      let opening ← deployment.openings[id]?
      if opening.point = .running ∧ opening.seedHistory ∧ !opening.retried then
        some (deployment.setOpening id
          { opening with point := .resetting, threadId := none, retried := true })
      else none
  | .close id => do
      let opening ← deployment.openings[id]?
      some (deployment.setOpening id { opening with point := .closed })
  | .unload threadId =>
      some { deployment with threads := setThread threadId Thread.unload deployment.threads }
  | .forget threadId =>
      some { deployment with threads := setThread threadId Thread.forget deployment.threads }
  | .callTool threadId supplied tool => do
      let done ← McpAuthz.callTool jwt database deployment.now deployment.roles deployment.notes
        supplied (deployment.header threadId) tool
      some { deployment with notes := done.2 }

end

/-- Before the first turn: no chat has a thread. -/
def start {Token : Type} (roles : Roles) (notes : Notes.State) : Deployment Token where
  roles := roles
  chats := fun _ => none
  notes := notes

end Deployment
end CodexServer.McpAuthz
