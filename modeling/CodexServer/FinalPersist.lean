import CodexServer.Interface
import CodexServer.Markdown
import CodexServer.Seeding
import CodexServer.Uploads

/-!
# The final persist of a turn

`_finalize_turn_persist` is one transaction: the files that the tools of the turn have attached go
to S3 and into `uploads`, and then come the final message, its attachment to the turn, the deletion
of the partial rows and the TURN_COMPLETED entry. `persist_attachments` goes on after the exceptions
it catches. A flush that fails loses the transaction, and the session raises until it is rolled
back.
-/

namespace CodexServer.FinalPersist

abbrev Text := List Char

inductive Error
  | valueError (text : String)
  | runtimeError (text : String)
  | osError (text : String)
  | sqlAlchemyError (text : String)
  | botoCoreError (text : String)
  | clientError (text : String)
deriving DecidableEq

/-- What `persist_attachments` goes on after. -/
def Error.isCaught : Error → Bool
  | osError _ | sqlAlchemyError _ | botoCoreError _ | clientError _ => true
  | valueError _ | runtimeError _ => false

/-! ### Paths -/

/-- `PurePosixPath` -/
structure PosixPath where
  root : Text
  parts : List Text
deriving DecidableEq

namespace PosixPath

def ofText (text : Text) : PosixPath where
  root :=
    if "///".toList <+: text then "/".toList
    else if "//".toList <+: text then "//".toList
    else if "/".toList <+: text then "/".toList
    else []
  parts := (text.splitOnP (· == '/')).filter fun part => part ≠ [] && part ≠ ['.']

def isAbsolute (path : PosixPath) : Bool := path.root ≠ []

/-- `base / path` -/
def join (base path : PosixPath) : PosixPath :=
  if path.isAbsolute then path else ⟨base.root, base.parts ++ path.parts⟩

def isRelativeTo (path root : PosixPath) : Bool :=
  path.root = root.root && root.parts.isPrefixOf path.parts

def name (path : PosixPath) : Text := path.parts.getLastD []

end PosixPath

/-- What S3, or reading the file for it, raises. -/
inductive StorageFault
  | osError (text : String)
  | botoCoreError (text : String)
  | clientError (text : String)
deriving DecidableEq

def StorageFault.error : StorageFault → Error
  | osError text => .osError text
  | botoCoreError text => .botoCoreError text
  | clientError text => .clientError text

/-- The operating system, the storage, and the database as far as `uploads` is concerned. -/
structure Platform where
  workspaceRoot : PosixPath
  generatedImages : PosixPath
  /-- The checks of `urlsplit` on a network location whose brackets match. -/
  checkNetloc : Text → Except String Unit
  /-- `os.path.expanduser` -/
  expandHome : Text → Except Error Text
  /-- `os.path.realpath` -/
  realpath : PosixPath → Except Error PosixPath
  isFile : PosixPath → Bool
  stat : PosixPath → Except String Nat
  guessType : Text → Option Text
  bucket : Uploads.Bucket
  /-- The key that is drawn for a file. -/
  uuid : PosixPath → Uploads.Uuid
  storageFault : PosixPath → Option StorageFault
  insertFault : PosixPath → Option String

section

variable (platform : Platform)

/-- The network location of a URL. -/
def netloc (url : Text) : Option Text :=
  let stripped := (url.dropWhile fun c => c.toNat ≤ 32).filter fun c =>
    c ≠ '\t' && c ≠ '\r' && c ≠ '\n'
  let scheme := Markdown.urlScheme url
  let rest := if scheme = [] then stripped else stripped.drop (scheme.length + 1)
  if "//".toList <+: rest then
    some ((rest.drop 2).takeWhile fun c => c ≠ '/' && c ≠ '?' && c ≠ '#')
  else none

/-- The scheme that `urlparse` finds. -/
def urlparse (url : Text) : Except Error Text :=
  match netloc url with
  | none => .ok (Markdown.urlScheme url)
  | some location =>
      if location.contains '[' = location.contains ']' then
        match platform.checkNetloc location with
        | .ok () => .ok (Markdown.urlScheme url)
        | .error text => .error (.valueError text)
      else .error (.valueError "Invalid IPv6 URL")

/-- `Path.expanduser` -/
def expanduser (path : PosixPath) : Except Error PosixPath :=
  match path.isAbsolute, path.parts with
  | false, first :: rest =>
      if first.head? = some '~' then
        match platform.expandHome first with
        | .error error => .error error
        | .ok home =>
            if home.head? = some '~' then
              .error (.runtimeError "Could not determine home directory.")
            else .ok ⟨(PosixPath.ofText home).root, (PosixPath.ofText home).parts ++ rest⟩
      else .ok path
  | _, _ => .ok path

/-- `_is_inside_trusted_root` -/
def isInsideTrustedRoot (path : PosixPath) : Bool :=
  [platform.workspaceRoot, platform.generatedImages].any path.isRelativeTo

def resolveTrustedLocalPath (source : String) : Except Error (Option PosixPath) := do
  let scheme ← urlparse platform source.toList
  if scheme = "http".toList ∨ scheme = "https".toList then return none
  let path ← expanduser platform (.ofText source.toList)
  let path ← platform.realpath
    (if path.isAbsolute then path else platform.workspaceRoot.join path)
  if !isInsideTrustedRoot platform path || !platform.isFile path then return none
  return some path

/-- `_unique_local_paths` -/
def uniqueLocalPaths (attachments : List Attachment) (out : List PosixPath) :
    Except Error (List PosixPath) :=
  match attachments with
  | [] => .ok out
  | attachment :: rest => do
      match ← resolveTrustedLocalPath platform attachment.source with
      | none => uniqueLocalPaths rest out
      | some path =>
          if path ∈ out then uniqueLocalPaths rest out else uniqueLocalPaths rest (out ++ [path])

/-! ### The database -/

/-- `meta` of a final message; an empty value is no entry. -/
structure Meta where
  calls : List ToolCallRecord
  uploadIds : List Nat
  clientId : Option String
deriving DecidableEq

structure Message where
  id : Nat
  chatId : Int
  role : Seeding.MessageRole
  text : String
  metadata : Option Meta
deriving DecidableEq

structure Turn where
  id : Nat
  assistantMessageId : Option Nat
deriving DecidableEq

structure Event where
  kind : EventKind
  chatId : Int
  userId : Int
  finalTextLen : Nat
  toolCalls : Nat
  uploads : Nat
deriving DecidableEq

structure Database where
  uploads : List (Nat × Uploads.Upload)
  nextUploadId : Nat
  messages : List Message
  nextMessageId : Nat
  turns : List Turn
  events : List Event
deriving DecidableEq

structure Session where
  committed : Database
  /-- The database as the transaction sees it. -/
  view : Database
  /-- No flush has failed. -/
  usable : Bool

def Session.opened (database : Database) : Session := ⟨database, database, true⟩

abbrev Code := ExceptT Error (StateM Session)

def pendingRollback : Error :=
  .sqlAlchemyError
    "This Session's transaction has been rolled back due to a previous exception during flush."

/-- A statement of the transaction. -/
def execute {Answer : Type} (statement : Database → Answer × Database) : Code Answer := do
  let session ← get
  if session.usable then
    set { session with view := (statement session.view).2 }
    return (statement session.view).1
  else throw pendingRollback

/-- A flush of an `uploads` row. -/
def flushUpload (fault : Option String) (upload : Uploads.Upload) : Code Nat := do
  let session ← get
  match session.usable, fault with
  | true, some text => do
      set { session with view := session.committed, usable := false }
      throw (.sqlAlchemyError text)
  | _, _ =>
      execute fun database => (database.nextUploadId, { database with
        uploads := database.uploads ++ [(database.nextUploadId, upload)]
        nextUploadId := database.nextUploadId + 1 })

def commit : Code Unit := do
  let session ← get
  if session.usable then set { session with committed := session.view }
  else throw pendingRollback

/-! ### The persist -/

/-- What `_finalize_turn_persist` is called with. -/
structure Request where
  chatId : Int
  userId : Int
  text : String
  toolCalls : List ToolCallRecord
  attachments : List Attachment
  clientId : Option String
  turnId : Option Nat
  partialMsgIds : List Nat

variable (request : Request)

/-- The row of a file of this size. -/
def uploadOf (path : PosixPath) (size : Nat) : Uploads.Upload :=
  Uploads.Source.upload ⟨path.name, size, none, none⟩ platform.guessType platform.bucket
    request.userId (some request.chatId) (platform.uuid path)

/-- `_persist_local_file` -/
def persistLocalFile (path : PosixPath) : Code Nat :=
  match platform.stat path with
  | .error text => throw (.osError text)
  | .ok size =>
      match platform.storageFault path with
      | some fault => throw fault.error
      | none => flushUpload (platform.insertFault path) (uploadOf platform request path size)

/-- The `try` of `persist_attachments`. -/
def attempt (code : Code Nat) : Code (Option Nat) :=
  tryCatch (some <$> code) fun error => if error.isCaught then return none else throw error

/-- The loop of `persist_attachments`. -/
def persistEach : List PosixPath → Code (List Nat)
  | [] => return []
  | path :: rest => do
      let uploadId ← attempt (persistLocalFile platform request path)
      let uploadIds ← persistEach rest
      return uploadId.toList ++ uploadIds

def persistAttachments : Code (List Nat) :=
  match uniqueLocalPaths platform request.attachments [] with
  | .error error => throw error
  | .ok paths => persistEach platform request paths

/-- `meta or None` -/
def metaOf (uploadIds : List Nat) : Option Meta :=
  let clientId := request.clientId.filter (· ≠ "")
  if request.toolCalls = [] ∧ uploadIds = [] ∧ clientId = none then none
  else some ⟨request.toolCalls, uploadIds, clientId⟩

/-- `MessageService.append` -/
def appendMessage (metadata : Option Meta) : Code Message := do
  -- `touch_last_msg_at`, which nothing here looks at
  execute fun database => ((), database)
  execute fun database =>
    let message : Message :=
      ⟨database.nextMessageId, request.chatId, .assistant, request.text, metadata⟩
    (message, { database with
      messages := database.messages ++ [message], nextMessageId := database.nextMessageId + 1 })

/-- `attach_assistant_message` -/
def attachAssistantMessage (turnId messageId : Nat) : Code Unit :=
  execute fun database => ((), { database with
    turns := database.turns.map fun turn =>
      if turn.id = turnId then { turn with assistantMessageId := some messageId } else turn })

/-- `delete_many` -/
def deleteMany (messageIds : List Nat) : Code Unit :=
  if messageIds = [] then return ()
  else execute fun database => ((), { database with
    messages := database.messages.filter fun message => message.id ∉ messageIds })

/-- `EventService.emit` -/
def emit (event : Event) : Code Unit :=
  execute fun database => ((), { database with events := database.events ++ [event] })

def completed (uploads : Nat) : Event where
  kind := .turnCompleted
  chatId := request.chatId
  userId := request.userId
  finalTextLen := request.text.length
  toolCalls := request.toolCalls.length
  uploads := uploads

def finalizeTurnPersist : Code Message := do
  let uploadIds ← persistAttachments platform request
  let message ← appendMessage request (metaOf request uploadIds)
  if let some turnId := request.turnId then
    attachAssistantMessage turnId message.id
  deleteMany request.partialMsgIds
  emit (completed request uploadIds.length)
  commit
  return message

/-- The database that a call leaves; what is not committed is lost when the session closes. -/
def saved (database : Database) : Database :=
  ((finalizeTurnPersist platform request).run (.opened database)).2.committed

end
end CodexServer.FinalPersist
