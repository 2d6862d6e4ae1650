import Mathlib.Data.List.DropRight
import CodexServer.WebChat
import CodexServer.Library.Transition

/-!
# The composer

`Composer.svelte` collects what the next message is made of: the text, the attachments, which upload
while the user goes on, and recordings, which are uploaded and transcribed and then sent at once. A
step is one event of the browser or of a call, with all that follows before the next one.
-/

namespace CodexServer.Composer

open WebChat (isSpace)

abbrev Text := List Char

/-- `trim` -/
def trim (text : Text) : Text := (text.dropWhile isSpace).rdropWhile isSpace

inductive Status
  | uploading
  | ready (uploadId : Nat)
  | failed
deriving DecidableEq

structure Pending where
  key : Nat
  status : Status
deriving DecidableEq

/-- Where a call of `processAudio` is. -/
inductive Stage
  | uploading
  | transcribing (uploadId : Nat)
  /-- It awaits `onsend`. -/
  | sending
  | settled
deriving DecidableEq

/-- What `onsend` is called with. -/
structure Message where
  text : Text
  imageIds : List Nat
  audioIds : List Nat
deriving DecidableEq

def Message.uploadIds (message : Message) : List Nat := message.imageIds ++ message.audioIds

structure State where
  text : Text := []
  pending : List Pending := []
  transcribing : Bool := false
  audioUploadIds : List Nat := []
  /-- The calls of `processAudio`. -/
  recordings : List Stage := []
  /-- The keys of the calls of `attach` whose upload has not been answered. -/
  uploads : List Nat := []
  nextKey : Nat := 0
  sent : List Message := []
  /-- The ids that the server has answered with. No variable has this and the rest. -/
  stored : List Nat := []
  /-- The ids of the items that the user has removed. -/
  removed : List Nat := []
  /-- The keys of those that were still uploading. -/
  discarded : List Nat := []
  /-- The keys of the items that were still uploading when a recording was sent. -/
  cleared : List Nat := []
  /-- Uploads that have ended after their item was gone. -/
  late : List (Nat × Nat) := []
deriving DecidableEq

def Pending.isUploading (item : Pending) : Bool := item.status = .uploading

def Pending.isReady (item : Pending) : Bool :=
  match item.status with
  | .ready _ => true
  | _ => false

/-- The id of an item that is sent; `0n` is none. -/
def Pending.readyId (item : Pending) : Option Nat :=
  match item.status with
  | .ready uploadId => if uploadId = 0 then none else some uploadId
  | _ => none

def readyIds (pending : List Pending) : List Nat := pending.filterMap Pending.readyId

def uploadingKeys (pending : List Pending) : List Nat :=
  (pending.filter Pending.isUploading).map Pending.key

def Stage.uploadId : Stage → Option Nat
  | .transcribing uploadId => some uploadId
  | _ => none

inductive Action
  | type (text : Text)
  /-- `attach` and `attachGeneric` -/
  | attach
  /-- The upload of an attachment is answered. -/
  | uploaded (key uploadId : Nat)
  | uploadFails (key : Nat)
  | remove (key : Nat)
  | send
  /-- `processAudio`, with a file or what has been recorded. -/
  | record
  | recordUploaded (id uploadId : Nat)
  | recordFails (id : Nat)
  /-- `transcribeUpload` is answered, or it fails. -/
  | transcribed (id : Nat) (answer : Option Text)
  /-- `onsend` settles. -/
  | handedOver (id : Nat)
deriving DecidableEq

namespace State

variable (composer : State)

def uploadingNow : Bool := composer.pending.any Pending.isUploading

def canSend : Bool :=
  !composer.uploadingNow && !composer.transcribing &&
    (trim composer.text ≠ [] || composer.pending.any Pending.isReady ||
      composer.audioUploadIds ≠ [])

/-- An id of its own for each upload. -/
def isFresh (uploadId : Nat) : Bool := uploadId ≠ 0 && !composer.stored.contains uploadId

def setStatus (key : Nat) (status : Status) (pending : List Pending) : List Pending :=
  pending.map fun item => if item.key = key then { item with status := status } else item

def answer (key uploadId : Nat) : State :=
  { composer with
    uploads := composer.uploads.erase key
    stored := composer.stored ++ [uploadId]
    pending := setStatus key (.ready uploadId) composer.pending
    late := if composer.pending.any fun item => item.key = key then composer.late
      else composer.late ++ [(key, uploadId)] }

/-- `remove` -/
def remove (key : Nat) : State :=
  let gone := composer.pending.filter fun item => item.key = key
  { composer with
    pending := composer.pending.filter fun item => item.key ≠ key
    removed := composer.removed ++ readyIds gone
    discarded := composer.discarded ++ uploadingKeys gone }

/-- What both ways to send do: the message is handed over, and nothing of it is kept. -/
def handOver (text : Text) (audioIds : List Nat) : State :=
  { composer with
    text := []
    pending := []
    audioUploadIds := []
    cleared := composer.cleared ++ uploadingKeys composer.pending
    sent := composer.sent ++ [⟨text, readyIds composer.pending, audioIds⟩] }

def setStage (id : Nat) (stage : Stage) : State :=
  { composer with recordings := composer.recordings.set id stage }

/-- `finally` -/
def settle (id : Nat) : State :=
  { composer.setStage id .settled with transcribing := false }

def carriedText (transcript : Text) : Text :=
  trim (composer.text ++
    (if composer.text ≠ [] ∧ transcript ≠ [] then [' '] else []) ++ transcript)

def transcribe (id uploadId : Nat) (transcript : Text) : State :=
  let carried := composer.carriedText transcript
  if carried = [] then
    { composer with audioUploadIds := composer.audioUploadIds ++ [uploadId] }.settle id
  else (composer.handOver carried (composer.audioUploadIds ++ [uploadId])).setStage id .sending

def step : Action → Option State
  | .type text => some { composer with text := text }
  | .attach => some { composer with
      pending := composer.pending ++ [⟨composer.nextKey, .uploading⟩]
      uploads := composer.uploads ++ [composer.nextKey]
      nextKey := composer.nextKey + 1 }
  | .uploaded key uploadId =>
      if composer.uploads.contains key && composer.isFresh uploadId then
        some (composer.answer key uploadId)
      else none
  | .uploadFails key =>
      if composer.uploads.contains key then
        some { composer with
          uploads := composer.uploads.erase key
          pending := setStatus key .failed composer.pending }
      else none
  | .remove key => some (composer.remove key)
  | .send =>
      if composer.canSend then
        some (composer.handOver (trim composer.text) composer.audioUploadIds)
      else some composer
  | .record => some { composer with
      recordings := composer.recordings ++ [.uploading]
      transcribing := true }
  | .recordUploaded id uploadId =>
      if composer.recordings[id]? = some .uploading ∧ composer.isFresh uploadId then
        some { composer.setStage id (.transcribing uploadId) with
          stored := composer.stored ++ [uploadId] }
      else none
  | .recordFails id =>
      if composer.recordings[id]? = some .uploading then some (composer.settle id) else none
  | .transcribed id answer =>
      match composer.recordings[id]? with
      | some (.transcribing uploadId) =>
          some (composer.transcribe id uploadId (trim (answer.getD [])))
      | _ => none
  | .handedOver id =>
      if composer.recordings[id]? = some .sending then some (composer.settle id) else none

/-! ### What becomes of the uploads -/

/-- The ids that are still to be sent. -/
def held : List Nat :=
  readyIds composer.pending ++ composer.audioUploadIds ++
    composer.recordings.filterMap Stage.uploadId

/-- The ids that have been sent. -/
def sentIds : List Nat := composer.sent.flatMap Message.uploadIds

/-- No recording is sent while an attachment uploads. -/
def waits : Action → Bool
  | .transcribed id answer =>
      match composer.recordings[id]? with
      | some (.transcribing _) =>
          composer.carriedText (trim (answer.getD [])) = [] || !composer.uploadingNow
      | _ => true
  | _ => true

end State
end CodexServer.Composer
