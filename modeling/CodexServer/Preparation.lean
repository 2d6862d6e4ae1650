import CodexServer.Library.Program
import CodexServer.Library.Transition
import CodexServer.Library.JsonText
import CodexServer.Markdown
import CodexServer.Uploads

/-!
# What a turn is prepared from

`prepare_turn` of the Telegram bot and `_prepare_run_turn` of the web: media become uploads, pictures
and transcripts, and what Codex cannot be given otherwise becomes a file in the workspace, which the
text mentions. Preparations of any chats run at a time, and take turns at their awaits; files are
written by threads, which go on when nobody waits for them anymore.
-/

namespace CodexServer.Preparation

open Uploads (fileName suffix)
open Markdown (Text strip)

abbrev Bytes := List UInt8

/-- A text that is there and not empty. -/
def given (text : Option Text) : Option Text := text.filter (· ≠ [])

/-- `str.isalnum` and the tables of `mimetypes`. -/
structure Platform where
  isAlnum : Char → Bool
  guessType : Text → Option Text
  guessExtension : Text → Option Text
  slash : isAlnum '/' = false

section

variable (platform : Platform)

/-! ### Files in the workspace -/

/-- `_SAFE_EXTRA_CHARS` -/
def isExtra (c : Char) : Bool := c = '.' || c = '_' || c = '-'

def safeFilename (filename : Text) : Text :=
  let cleaned := (fileName filename).map fun c =>
    if platform.isAlnum c || isExtra c then c else '_'
  let stripped := (cleaned.dropWhile isExtra).rdropWhile isExtra
  if stripped = [] then "file".toList else stripped

/-- The path that `materialize_for_chat` writes to. -/
def workspacePath (chatId uploadId : Nat) (filename : Text) : Text :=
  "uploads/chat-".toList ++ Nat.toDigits 10 chatId ++
    '/' :: (Nat.toDigits 10 uploadId ++ '-' :: safeFilename platform filename)

end

def formatMentions (paths : List Text) : Text :=
  if paths = [] then []
  else "Attached files (open from cwd):\n".toList ++
    "\n".toList.intercalate (paths.map fun path => "- `".toList ++ path ++ "`".toList)

/-- The mentions after a text. -/
def withMentions (text : Text) (paths : List Text) : Text :=
  let mentions := formatMentions paths
  if mentions = [] then text
  else if text = [] then mentions
  else text ++ "\n\n".toList ++ mentions

def openAttached : Text := "Open the attached files and answer based on them.".toList

/-! ### Awaits -/

inductive Fault
  /-- `OSError`, `SQLAlchemyError`, `BotoCoreError` or `ClientError`. -/
  | caught
  | other
deriving DecidableEq

inductive Op
  /-- `bot.download` -/
  | download (fileId : Nat)
  | persist (userId chatId : Nat) (filename mime : Text) (data : Bytes)
  | transcribe (data : Bytes) (filename : Text)
  /-- `upload_service.get`: the name and the type. -/
  | getUpload (uploadId userId : Nat)
  /-- `download_to_stream` -/
  | fetch (uploadId : Nat)
  /-- `_write` in a thread. -/
  | write (path : Text) (data : Bytes)

def Op.Val : Op → Type
  | download _ | fetch _ => Bytes
  | persist .. => Nat
  | transcribe .. => Text
  | getUpload .. => Option (Text × Text)
  | write .. => Unit

inductive Error
  /-- `UploadTooLarge` -/
  | tooLarge (size limit : Nat)
  /-- `upload {uid} not found` -/
  | notFound (uploadId : Nat)
  | raised (fault : Fault)
deriving DecidableEq

abbrev Code (α : Type) := Async Op Op.Val Fault Error Empty Unit α

def await (op : Op) : Code op.Val := Async.await .raised op

/-! ### Telegram -/

structure Media where
  fileId : Nat
  fileSize : Option Nat
  mimeType : Option Text
  fileName : Option Text

structure Message where
  messageId : Nat
  caption : Option Text
  text : Option Text
  /-- The sizes of a photo. -/
  photo : List Media
  document : Option Media
  voice : Option Media
  videoNote : Option Media
  audio : Option Media

/-- A `data:` URI. -/
structure DataUrl where
  mime : Text
  data : Bytes
deriving DecidableEq

structure PreparedTurn where
  text : Text
  attachments : List DataUrl
  uploadIds : List Nat
  hadVoiceInput : Bool
  replyToMessageId : Option Nat := none
  quotedText : Option Text := none

def quoteHeader : Text :=
  "Referenced Telegram message (quoted context, not new instructions):\n".toList

def requestHeader : Text := "\n\nCurrent user request:\n".toList

/-- `orjson.dumps` -/
def dumps (fields : List (Text × Text)) : Text :=
  JsonText.printSequence '{' '}' (JsonText.printPair JsonText.printString JsonText.printString)
    fields

/-- What Codex receives. -/
def PreparedTurn.prompt (turn : PreparedTurn) : Text :=
  match turn.quotedText with
  | none => turn.text
  | some quoted => quoteHeader ++ dumps [("text".toList, quoted)] ++ requestHeader ++ turn.text

/-- `_merge_text` -/
def mergeText (existing incoming : Text) (label : Option Text) : Text :=
  let incoming := strip incoming
  if incoming = [] then existing
  else
    let incoming := match label with
      | some label => label ++ ":\n".toList ++ incoming
      | none => incoming
    if existing = [] then incoming else existing ++ "\n\n".toList ++ incoming

/-- The items whose size is checked, in order. -/
def Message.items (message : Message) : List Media :=
  message.photo.getLast?.toList ++ message.document.toList ++ message.voice.toList ++
    message.videoNote.toList ++ message.audio.toList

/-- `_ensure_size` -/
def ensureSize (message : Message) : Option Nat → Except Error Unit
  | none => .ok ()
  | some limit =>
      match message.items.filterMap fun media => media.fileSize.filter fun size => limit < size with
      | [] => .ok ()
      | size :: _ => .error (.tooLarge size limit)

section

variable (platform : Platform)

/-- `_guess_ext` -/
def guessExt (mimeType name : Option Text) (default : Text) : Text :=
  ((given (name.map suffix)).or ((given mimeType).bind fun mime =>
    given (platform.guessExtension mime))).getD default

/-- The type is there and begins so, or is guessed so from the name. -/
def isDocumentOf (kind : Text) (mimeType name : Option Text) : Bool :=
  (given mimeType).any kind.isPrefixOf ||
    ((given name).bind platform.guessType).any kind.isPrefixOf

def isImageDocument : Option Text → Option Text → Bool := isDocumentOf platform "image/".toList

def isAudioDocument : Option Text → Option Text → Bool := isDocumentOf platform "audio/".toList

/-- `mime_type or guess_type(file_name or "")[0] or default` -/
def mimeOr (document : Media) (default : Text) : Text :=
  ((given document.mimeType).or
    (given (platform.guessType (document.fileName.getD [])))).getD default

/-- `_default_filename` -/
def defaultFilename (mime : Text) : Text :=
  "tg_media".toList ++ (given (platform.guessExtension mime)).getD ".bin".toList

variable (userId chatId : Nat)

/-- `_save_image` -/
def saveImage (media : Media) (mime : Text) : Code (DataUrl × Nat) := do
  let data ← await (.download media.fileId)
  let uploadId ← await (.persist userId chatId (defaultFilename platform mime) mime data)
  pure (⟨mime, data⟩, uploadId)

/-- `_transcribe_and_persist` -/
def transcribeAndPersist (media : Media) (mime filename : Text) : Code (Text × Option Nat) := do
  let data ← await (.download media.fileId)
  let uploadId ← Async.tryCatch (do
      let uploadId ← await (.persist userId chatId filename mime data)
      pure (some uploadId))
    fun error => if error = .raised .caught then pure none else Async.throw error
  let transcript ← await (.transcribe data filename)
  pure (transcript, uploadId)

def materializeForChat (data : Bytes) (uploadId : Nat) (filename : Text) : Code Text := do
  let path := workspacePath platform chatId uploadId filename
  let _ ← await (.write path data)
  pure path

/-- What `_prepare_document` returns. -/
structure PreparedDocument where
  text : Text := []
  attachment : Option DataUrl := none
  uploadId : Option Nat := none
  filePath : Option Text := none

/-- `_prepare_document` -/
def prepareDocument (document : Media) : Code PreparedDocument := do
  if isImageDocument platform document.mimeType document.fileName then
    let image ← saveImage platform userId chatId document
      (mimeOr platform document "image/jpeg".toList)
    pure { attachment := some image.1, uploadId := some image.2 }
  else if isAudioDocument platform document.mimeType document.fileName then
    let mime := mimeOr platform document "audio/mpeg".toList
    let filename := (given document.fileName).getD
      ("document".toList ++ guessExt platform (some mime) none ".mp3".toList)
    let spoken ← transcribeAndPersist userId chatId document mime filename
    pure { text := spoken.1, uploadId := spoken.2 }
  else
    let mime := mimeOr platform document "application/octet-stream".toList
    let filename := (given document.fileName).getD
      ("document".toList ++ guessExt platform (some mime) none ".bin".toList)
    let data ← await (.download document.fileId)
    let uploadId ← await (.persist userId chatId filename mime data)
    let path ← materializeForChat platform chatId data uploadId filename
    pure { uploadId := some uploadId, filePath := some path }

/-- The variables of `_prepare_message`. -/
structure Parts where
  text : Text
  attachments : List DataUrl := []
  uploadIds : List Nat := []
  filePaths : List Text := []

def addPhoto (photo : Option Media) (parts : Parts) : Code Parts :=
  match photo with
  | none => pure parts
  | some media => do
      let image ← saveImage platform userId chatId media "image/jpeg".toList
      pure { parts with
        attachments := parts.attachments ++ [image.1], uploadIds := parts.uploadIds ++ [image.2] }

def addDocument (document : Option Media) (parts : Parts) : Code Parts :=
  match document with
  | none => pure parts
  | some document => do
      let prepared ← prepareDocument platform userId chatId document
      pure {
        text := mergeText parts.text prepared.text none
        attachments := parts.attachments ++ prepared.attachment.toList
        uploadIds := parts.uploadIds ++ prepared.uploadId.toList
        filePaths := parts.filePaths ++ prepared.filePath.toList }

/-- A voice message, a video note or an audio file. -/
def addSpeech (media : Option Media) (mime filename label : Text) (parts : Parts) : Code Parts :=
  match media with
  | none => pure parts
  | some media => do
      let spoken ← transcribeAndPersist userId chatId media mime filename
      pure { parts with
        text := mergeText parts.text spoken.1 (some label)
        uploadIds := parts.uploadIds ++ spoken.2.toList }

/-- `mime_type or "audio/mpeg"` -/
def audioMime (audio : Option Media) : Text :=
  (given (audio.bind Media.mimeType)).getD "audio/mpeg".toList

def audioFilename (audio : Option Media) : Text :=
  "audio".toList ++
    guessExt platform (some (audioMime audio)) (audio.bind Media.fileName) ".mp3".toList

/-- `_prepare_message` -/
def prepareMessage (limit : Option Nat) (message : Message) : Code PreparedTurn := do
  Async.ofExcept (ensureSize message limit)
  let parts : Parts := { text := strip (((given message.caption).or message.text).getD []) }
  let parts ← addPhoto platform userId chatId message.photo.getLast? parts
  let parts ← addDocument platform userId chatId message.document parts
  let parts ← addSpeech userId chatId message.voice "audio/ogg".toList "voice.ogg".toList
    "Voice transcript".toList parts
  let parts ← addSpeech userId chatId message.videoNote "video/mp4".toList "video_note.mp4".toList
    "Voice transcript".toList parts
  let parts ← addSpeech userId chatId message.audio (audioMime message.audio)
    (audioFilename platform message.audio) "Audio transcript".toList parts
  let text := if (parts.attachments ≠ [] ∨ parts.filePaths ≠ []) ∧ parts.text = [] then openAttached
    else parts.text
  pure {
    text := withMentions text parts.filePaths
    attachments := parts.attachments
    uploadIds := parts.uploadIds
    hadVoiceInput := message.voice.isSome || message.videoNote.isSome }

def prepareTurn (limit : Option Nat) (message : Message) (reply : Option Message) :
    Code PreparedTurn := do
  Async.ofExcept (ensureSize message limit)
  Async.ofExcept ((reply.map fun reply => ensureSize reply limit).getD (.ok ()))
  let current ← prepareMessage platform userId chatId limit message
  match reply with
  | none => pure current
  | some reply => do
      let quoted ← prepareMessage platform userId chatId limit reply
      pure { current with
        attachments := quoted.attachments ++ current.attachments
        uploadIds := quoted.uploadIds ++ current.uploadIds
        replyToMessageId := some reply.messageId
        quotedText := some quoted.text }

/-! ### The web -/

structure ResolvedUploads where
  imageUrls : List DataUrl := []
  imageIds : List Nat := []
  audioIds : List Nat := []
  filePaths : List Text := []
  fileIds : List Nat := []

/-- One upload of the request. -/
def resolveUpload (uploadId : Nat) (resolved : ResolvedUploads) : Code ResolvedUploads := do
  match ← await (.getUpload uploadId userId) with
  | none => Async.throw (.notFound uploadId)
  | some (filename, mime) =>
      if "audio/".toList.isPrefixOf mime then
        pure { resolved with audioIds := resolved.audioIds ++ [uploadId] }
      else do
        let data ← await (.fetch uploadId)
        if "image/".toList.isPrefixOf mime then
          pure { resolved with
            imageIds := resolved.imageIds ++ [uploadId]
            imageUrls := resolved.imageUrls ++ [⟨mime, data⟩] }
        else do
          let path ← materializeForChat platform chatId data uploadId filename
          pure { resolved with
            filePaths := resolved.filePaths ++ [path], fileIds := resolved.fileIds ++ [uploadId] }

def resolveUploads (uploadIds : List Nat) (resolved : ResolvedUploads) : Code ResolvedUploads :=
  match uploadIds with
  | [] => pure resolved
  | uploadId :: rest => do
      let resolved ← resolveUpload platform userId chatId uploadId resolved
      resolveUploads rest resolved

structure PreparedRunTurn where
  text : Text
  uploads : ResolvedUploads
  voiceReply : Bool
  hasUploads : Bool

/-- `_prepare_run_turn` from the chat on. -/
def prepareRunTurn (text : Text) (uploadIds : List Nat) : Code PreparedRunTurn := do
  let uploads ← resolveUploads platform userId chatId uploadIds {}
  let text := if text = [] ∧ (uploads.imageUrls ≠ [] ∨ uploads.filePaths ≠ []) then openAttached
    else text
  pure {
    text := withMentions text uploads.filePaths
    uploads
    voiceReply := uploads.audioIds ≠ []
    hasUploads := uploads.imageUrls ≠ [] ∨ uploads.filePaths ≠ [] ∨ uploads.audioIds ≠ [] }

end

/-! ### Preparations side by side -/

/-- A row of `uploads`, with the bytes of its object. -/
structure Upload where
  id : Nat
  userId : Nat
  chatId : Option Nat
  filename : Text
  mime : Text
  data : Bytes
deriving DecidableEq

inductive Prepared
  | telegram (turn : PreparedTurn)
  | web (requested : List Nat) (turn : PreparedRunTurn)

/-- An upload that a preparation has the bytes of. -/
structure Seen where
  id : Nat
  filename : Text
  mime : Text
  data : Bytes

/-- What the awaits of a preparation have come to. No variable has this. -/
structure History where
  known : List Seen := []
  /-- The names and the types of the uploads that have been looked up. -/
  names : List (Nat × Text × Text) := []
  persisted : List Nat := []
  written : List Text := []

namespace History

variable (history : History)

def persist (seen : Seen) : History :=
  { history with known := history.known ++ [seen], persisted := history.persisted ++ [seen.id] }

def fetch (uploadId : Nat) (data : Bytes) : History :=
  { history with
    known := history.known ++
      (history.names.filter fun entry => entry.1 = uploadId).map fun entry =>
        ⟨uploadId, entry.2.1, entry.2.2, data⟩ }

def name (uploadId : Nat) (found : Text × Text) : History :=
  { history with names := history.names ++ [(uploadId, found)] }

def write (path : Text) : History := { history with written := history.written ++ [path] }

def next : (op : Op) → Except Fault op.Val → History
  | .persist _ _ filename mime data, .ok uploadId =>
      history.persist ⟨uploadId, filename, mime, data⟩
  | .getUpload uploadId _, .ok (some found) => history.name uploadId found
  | .fetch uploadId, .ok data => history.fetch uploadId data
  | .write path _, .ok _ => history.write path
  | _, _ => history

end History

/-- Where the thread is that a process waits for. -/
inductive Phase
  | queued
  | opened
  | written
deriving DecidableEq

structure Process where
  userId : Nat
  chatId : Nat
  program : Program Op Op.Val Fault Empty (Except Error Prepared × Unit)
  phase : Phase := .queued
  history : History := {}

structure World where
  uploads : List Upload := []
  deleted : List Nat := []
  files : Text → Option Bytes := fun _ => none
  /-- What threads write that nobody waits for, as the task was cancelled or writing has failed. -/
  lingering : List (Text × Bytes) := []
  /-- The files that such a thread has left unfinished, and that were not written since. Nothing reads
  this. -/
  unfinished : List Text := []
  processes : List Process := []

/-- What an await comes to. -/
inductive Outcome
  | bytes (data : Bytes)
  | uploadId (id : Nat)
  | transcript (text : Text)
  | found (upload : Option (Text × Text))
  | done
  | fault (fault : Fault)

def Op.answer : (op : Op) → Outcome → Option (Except Fault op.Val)
  | .download _, .bytes data | .fetch _, .bytes data => some (.ok data)
  | .persist .., .uploadId id => some (.ok id)
  | .transcribe .., .transcript text => some (.ok text)
  | .getUpload .., .found upload => some (.ok upload)
  | .write .., .done => some (.ok ())
  | _, .fault fault => some (.error fault)
  | _, _ => none

inductive Action
  | prepareTurn (userId chatId : Nat) (limit : Option Nat) (message : Message)
      (reply : Option Message)
  | prepareRunTurn (userId chatId : Nat) (text : Text) (uploadIds : List Nat)
  /-- The thread that a process waits for opens its file, or writes it. -/
  | thread (index : Nat)
  | advance (index : Nat) (outcome : Outcome)
  /-- A thread that nobody waits for opens its file, or writes so much. -/
  | linger (index : Nat) (written : Option Nat)
  /-- A thread that nobody waits for comes to its end, or fails. -/
  | leave (index : Nat)
  /-- A row that is not of a preparation, or of one that has failed after its commit. -/
  | store (upload : Upload)
  | delete (uploadId : Nat)

namespace World

section

variable (world : World)

def upload? (uploadId : Nat) : Option Upload :=
  world.uploads.find? fun upload => upload.id = uploadId

def insert (upload : Upload) : Option World :=
  if (world.upload? upload.id).isSome then none
  else some { world with uploads := world.uploads ++ [upload] }

/-- What the user gets to see of the upload. -/
def visible (uploadId userId : Nat) : Option (Text × Text) :=
  ((world.upload? uploadId).filter fun upload =>
    upload.userId = userId && !world.deleted.contains uploadId).map
      fun upload => (upload.filename, upload.mime)

def setFile (path : Text) (data : Bytes) : World :=
  { world with files := Function.update world.files path (some data) }

/-- The file is created, or there already and emptied. -/
def truncate (path : Text) : World := world.setFile path []

/-- These bytes take the place of the first ones of the file. -/
def splice (path : Text) (data : Bytes) : World :=
  world.setFile path (data ++ ((world.files path).getD []).drop data.length)

/-- What the operation does, if it can come to this. -/
def perform (phase : Phase) : Op → Outcome → Option World
  | .persist userId chatId filename mime data, .uploadId id =>
      world.insert { id, userId, chatId := some chatId, filename, mime, data }
  | .getUpload uploadId userId, .found upload =>
      if upload = world.visible uploadId userId then some world else none
  | .fetch uploadId, .bytes data =>
      if (world.upload? uploadId).any fun upload => upload.data = data then some world else none
  | .write .., .done => if phase = .written then some world else none
  | .write path data, .fault _ => some { world with lingering := (path, data) :: world.lingering }
  | _, _ => some world

def begin (userId chatId : Nat) (code : Code Prepared) : World :=
  { world with
    processes := world.processes ++ [{ userId, chatId, program := code () }] }

end

def step (platform : Platform) (world : World) : Action → Option World
  | .prepareTurn userId chatId limit message reply =>
      some (world.begin userId chatId
        (Prepared.telegram <$> Preparation.prepareTurn platform userId chatId limit message reply))
  | .prepareRunTurn userId chatId text uploadIds =>
      some (world.begin userId chatId
        (Prepared.web uploadIds <$>
          Preparation.prepareRunTurn platform userId chatId text uploadIds))
  | .thread index => do
      let process ← world.processes[index]?
      match process.program, process.phase with
      | .call (.write path _) _, .queued =>
          some { world.truncate path with
            processes := world.processes.set index { process with phase := .opened } }
      | .call (.write path data) _, .opened =>
          some { world.splice path data with
            unfinished := world.unfinished.filter (· ≠ path)
            processes := world.processes.set index { process with phase := .written } }
      | _, _ => none
  | .advance index outcome => do
      let process ← world.processes[index]?
      match process.program with
      | .call op next => do
          let answer ← op.answer outcome
          let after ← world.perform process.phase op outcome
          some { after with
                processes := world.processes.set index { process with
                  program := next answer
                  phase := .queued
                  history := process.history.next op answer } }
      | .ret _ => none
  | .linger index written => do
      let entry ← world.lingering[index]?
      some (match written with
        | none => world.truncate entry.1
        | some count => world.splice entry.1 (entry.2.take count))
  | .leave index => do
      let entry ← world.lingering[index]?
      some { world with
        lingering := world.lingering.eraseIdx index
        unfinished :=
          if world.files entry.1 = some entry.2 then world.unfinished
          else entry.1 :: world.unfinished }
  | .store upload => world.insert upload
  | .delete uploadId => some { world with deleted := uploadId :: world.deleted }

end World

end CodexServer.Preparation
