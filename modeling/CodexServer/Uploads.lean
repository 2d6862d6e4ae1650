import Mathlib.Logic.Function.Basic
import CodexServer.Library.Transition

/-!
# Uploads

The bytes of an upload are an object in S3, its metadata a row. An upload stores the object and then
inserts the row; `delete` deletes the object and then the row. The commit is the caller's, and every
step may fail. An exception that leaves an operation ends the session: none of the callers catches
one inside it.
-/

namespace CodexServer.Uploads

/-! ### Keys -/

/-- A bucket name has no slash. -/
structure Bucket where
  name : List Char
  noSlash : '/' ∉ name

/-- `uuid4().hex` -/
structure Uuid where
  hex : List Char
  length : hex.length = 32
  noSlash : '/' ∉ hex
deriving DecidableEq

/-- `Path(path).name`: the last part of a path that is neither empty nor a dot. -/
def fileName (path : List Char) : List Char :=
  ((path.splitOnP (· == '/')).filter fun part => part ≠ [] && part ≠ ['.']).getLastD []

/-- `Path(path).suffix`: from the last dot of the name, unless there are only dots before it. -/
def suffix (path : List Char) : List Char :=
  let name := fileName path
  let extension := name.reverse.takeWhile (· ≠ '.')
  let stem := name.reverse.dropWhile (· ≠ '.')
  if stem.any (· ≠ '.') then '.' :: extension.reverse else []

def intText (n : Int) : List Char := (toString n).toList

/-- The key of a new object. -/
def objectKey (userId : Int) (chatId : Option Int) (uuid : Uuid) (filename : List Char) :
    List Char :=
  let chatSegment := chatId.elim ("users/".toList ++ intText userId) intText
  "chats/".toList ++ chatSegment ++ "/uploads".toList ++ '/' :: (uuid.hex ++ suffix filename)

/-- `s3://{bucket}/{key}` -/
def s3Path (bucket : Bucket) (key : List Char) : List Char :=
  "s3://".toList ++ (bucket.name ++ '/' :: key)

/-- `_key_from_s3_path` -/
def keyFromS3Path (path : List Char) : Option (List Char) :=
  if "s3://".toList <+: path then
    match (path.drop 5).dropWhile (· ≠ '/') with
    | [] => none
    | _ :: key => some key
  else none

/-! ### Rows -/

structure Upload where
  userId : Int
  chatId : Option Int
  filename : List Char
  mime : List Char
  size : Nat
  s3Path : List Char
deriving DecidableEq

def Upload.key (upload : Upload) : Option (List Char) := keyFromS3Path upload.s3Path

/-- A local file, with the name and the type that `persist_chunks` gives it. -/
structure Source where
  name : List Char
  size : Nat
  filename : Option (List Char)
  mime : Option (List Char)
deriving DecidableEq

/-- `filename or source.name` -/
def Source.resolvedFilename (source : Source) : List Char :=
  ((source.filename).filter (· ≠ [])).getD source.name

/-- `mime or guess_type(…) or "application/octet-stream"` -/
def Source.resolvedMime (guessType : List Char → Option (List Char)) (source : Source) :
    List Char :=
  ((source.mime.filter (· ≠ [])).or ((guessType source.resolvedFilename).filter (· ≠ []))).getD
    "application/octet-stream".toList

/-- The row of a file whose object has been stored. -/
def Source.upload (source : Source) (guessType : List Char → Option (List Char)) (bucket : Bucket)
    (userId : Int) (chatId : Option Int) (uuid : Uuid) : Upload where
  userId := userId
  chatId := chatId
  filename := source.resolvedFilename
  mime := source.resolvedMime guessType
  size := source.size
  s3Path := s3Path bucket (objectKey userId chatId uuid source.resolvedFilename)

/-! ### Sessions -/

inductive Phase
  | idle
  /-- `put_object` has succeeded. -/
  | stored (upload : Upload)
  /-- `delete` has found its row. -/
  | deleting (id : Nat) (upload : Upload)
  | closed
deriving DecidableEq

structure Session where
  phase : Phase
  /-- A flush has failed, so nothing of the transaction is left. -/
  broken : Bool
  inserted : Nat → Option Upload
  removed : List Nat

def Session.opened : Session := ⟨.idle, false, fun _ => none, []⟩

/-- A session that has lost what it has not committed. -/
def Session.lost (phase : Phase) : Session := ⟨phase, true, fun _ => none, []⟩

def Session.closed : Session := ⟨.closed, false, fun _ => none, []⟩

structure System where
  /-- The keys of the objects that have been stored, and of those that have been deleted. -/
  stored : List (List Char)
  deleted : List (List Char)
  uuids : List Uuid
  /-- The committed rows. -/
  rows : Nat → Option Upload
  nextId : Nat
  sessions : List Session

namespace System

def start : System := ⟨[], [], [], fun _ => none, 1, []⟩

variable (system : System)

def setSession (index : Nat) (session : Session) : System :=
  { system with sessions := system.sessions.set index session }

/-- The row as a session sees it. -/
def visible (session : Session) (id : Nat) : Option Upload :=
  if id ∈ session.removed then none else (session.inserted id).or (system.rows id)

end System

/-! ### The operations -/

/-- Whether `put_object` has stored the object, and whether an exception came out: one that
`persist_attachments` catches, or one that ends the session. -/
inductive PutOutcome
  | stored
  | caught (stored : Bool)
  | raised (stored : Bool)
deriving DecidableEq

def PutOutcome.stores : PutOutcome → Bool
  | .stored => true
  | .caught object | .raised object => object

/-- Whether the object is gone, and whether an exception came out that `delete` does not catch: a
`StorageError` is one, since it is a `RuntimeError`. -/
structure DeleteOutcome where
  gone : Bool
  raised : Bool
deriving DecidableEq

inductive FlushOutcome
  | flushed
  | caught
  | raised
deriving DecidableEq

inductive Operation
  | put (source : Source) (userId : Int) (chatId : Option Int) (uuid : Uuid) (outcome : PutOutcome)
  | flush (outcome : FlushOutcome)
  /-- The `SELECT` of `delete`. -/
  | find (id : Nat) (userId : Int)
  | deleteObject (outcome : DeleteOutcome)
  | commit (succeeds : Bool)
  | close
deriving DecidableEq

inductive Action
  | begin
  | execute (session : Nat) (operation : Operation)
deriving DecidableEq

section

variable (guessType : List Char → Option (List Char)) (bucket : Bucket) (system : System)
  (index : Nat) (session : Session)

/-- `upload_file` of a file that exists, with a new uuid. -/
def put (source : Source) (userId : Int) (chatId : Option Int) (uuid : Uuid)
    (outcome : PutOutcome) : System :=
  let key := objectKey userId chatId uuid source.resolvedFilename
  let phase := match outcome with
    | .stored => .stored (source.upload guessType bucket userId chatId uuid)
    | .caught _ => .idle
    | .raised _ => .closed
  { system.setSession index (if phase = .closed then .closed else { session with phase := phase })
    with
    stored := if outcome.stores then system.stored ++ [key] else system.stored
    uuids := system.uuids ++ [uuid] }

/-- The `INSERT`, which a broken session refuses. -/
def flush (upload : Upload) : FlushOutcome → Option System
  | .flushed =>
      if session.broken then none
      else some { system.setSession index { session with
          phase := .idle
          inserted := Function.update session.inserted system.nextId (some upload) } with
        nextId := system.nextId + 1 }
  | .caught => some (system.setSession index (.lost .idle))
  | .raised => some (system.setSession index .closed)

/-- `get` -/
def find (id : Nat) (userId : Int) : System :=
  match (system.visible session id).filter fun upload => upload.userId = userId with
  | some upload => system.setSession index { session with phase := .deleting id upload }
  | none => system.setSession index { session with phase := .idle }

/-- `storage_service.delete`, and `session.delete` if the exception lets it come to that. -/
def deleteObject (id : Nat) (upload : Upload) (outcome : DeleteOutcome) : System :=
  let removed := system.setSession index
    { session with phase := .idle, removed := session.removed ++ [id] }
  match upload.key with
  | none => removed
  | some key =>
      { if outcome.raised then system.setSession index .closed else removed with
        deleted := if outcome.gone then system.deleted ++ [key] else system.deleted }

def commit (succeeds : Bool) : System :=
  { system.setSession index .closed with
    rows := if succeeds then system.visible session else system.rows }

def execute : Operation → Option System
  | .put source userId chatId uuid outcome =>
      if session.phase = .idle ∧ uuid ∉ system.uuids then
        some (put guessType bucket system index session source userId chatId uuid outcome)
      else none
  | .flush outcome => match session.phase with
      | .stored upload => flush system index session upload outcome
      | _ => none
  | .find id userId =>
      if session.phase = .idle ∧ session.broken = false then
        some (find system index session id userId)
      else none
  | .deleteObject outcome => match session.phase with
      | .deleting id upload => some (deleteObject system index session id upload outcome)
      | _ => none
  | .commit succeeds =>
      if session.phase = .idle ∧ session.broken = false then
        some (commit system index session succeeds)
      else none
  | .close => some (system.setSession index .closed)

def step : Action → Option System
  | .begin => some { system with sessions := system.sessions ++ [.opened] }
  | .execute index operation =>
      system.sessions[index]?.bind fun session =>
        execute guessType bucket system index session operation

end
end CodexServer.Uploads
