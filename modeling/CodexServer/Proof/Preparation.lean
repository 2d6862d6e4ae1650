import CodexServer.Preparation
import Mathlib.Data.List.Forall2

/-!
# What the text mentions is what was uploaded

The path of a file in the workspace is of one chat and one upload, whatever the name of the upload
is. So all that is ever written under it is of that upload, however often and however late it is
written.
-/

open Async Transition
open CodexServer.Markdown (Text strip)

namespace CodexServer.Preparation

/-! ### The prompt -/

section

variable {turn : PreparedTurn} {quoted : Text}

/-- The rest of a text that begins with this. -/
def afterPrefix (start text : Text) : Option Text :=
  if start.isPrefixOf text then some (text.drop start.length) else none

/-- The fields of the context of a prompt, and the request. -/
def readPrompt (prompt : Text) : Option (List (Text × Text) × Text) := do
  let context ← afterPrefix quoteHeader prompt
  let (fields, rest) ← JsonText.readSequence '{' '}'
    (JsonText.readPair JsonText.readString JsonText.readString) context
  let request ← afterPrefix requestHeader rest
  some (fields, request)

theorem afterPrefix_append (start rest : Text) : afterPrefix start (start ++ rest) = some rest := by
  have hbegins : start.isPrefixOf (start ++ rest) = true :=
    List.isPrefixOf_iff_prefix.mpr (List.prefix_append start rest)
  rw [afterPrefix, if_pos hbegins, List.drop_left]

theorem reads_dumps : JsonText.Reads (JsonText.readSequence '{' '}'
    (JsonText.readPair JsonText.readString JsonText.readString)) dumps :=
  (JsonText.reads_string.pair JsonText.reads_string).sequence '{' '}' (by decide) fun field => by
    cases field
    simp [JsonText.printPair, JsonText.printString]

/-- A quoted text ends where it ends, whatever is in it. -/
theorem readPrompt_prompt (hquoted : turn.quotedText = some quoted) :
    readPrompt turn.prompt = some ([("text".toList, quoted)], turn.text) := by
  have hprompt : turn.prompt = quoteHeader ++
      (dumps [("text".toList, quoted)] ++ (requestHeader ++ turn.text)) := by
    simp only [PreparedTurn.prompt, hquoted, List.append_assoc]
  rw [readPrompt, hprompt, afterPrefix_append]
  simp only [Option.bind_eq_bind, Option.bind_some, reads_dumps _ _, afterPrefix_append]

end

/-! ### Paths -/

section

variable {platform : Platform} {chatId other uploadId uploadId' : Nat} {filename filename' : Text}

theorem slash_not_mem_safeFilename : '/' ∉ safeFilename platform filename := by
  intro hmem
  unfold safeFilename at hmem
  simp only at hmem
  split at hmem
  · exact absurd hmem (by decide)
  · have hcleaned := List.mem_map.mp
      ((List.dropWhile_suffix _).mem ((List.rdropWhile_prefix _ _).mem hmem))
    obtain ⟨c, -, hc⟩ := hcleaned
    split at hc
    · next hkept =>
        subst hc
        simp [platform.slash, isExtra] at hkept
    · exact absurd hc (by decide)

/-- A file right in the directory of the chat: its name has no slash, and is neither `.` nor `..`. -/
def Inside (chatId : Nat) (path : Text) : Prop :=
  ∃ name, path = "uploads/chat-".toList ++ Nat.toDigits 10 chatId ++ '/' :: name ∧ '/' ∉ name ∧
    ∃ c, name.head? = some c ∧ c.isDigit = true

theorem inside_workspacePath : Inside chatId (workspacePath platform chatId uploadId filename) := by
  refine ⟨Nat.toDigits 10 uploadId ++ '-' :: safeFilename platform filename, rfl, ?_, ?_⟩
  · rw [List.mem_append, List.mem_cons, not_or, not_or]
    refine ⟨fun hmem => ?_, by decide, slash_not_mem_safeFilename⟩
    exact absurd (Nat.isDigit_of_mem_toDigits (by decide) (Nat.le_refl 10) hmem) (by decide)
  · cases hdigits : Nat.toDigits 10 uploadId with
    | nil => exact absurd hdigits Nat.toDigits_ne_nil
    | cons c rest =>
        have hmem : c ∈ Nat.toDigits 10 uploadId := hdigits ▸ List.mem_cons_self
        exact ⟨c, rfl, Nat.isDigit_of_mem_toDigits (by decide) (Nat.le_refl 10) hmem⟩

/-- A path is of one chat and one upload. -/
theorem workspacePath_inj (h : workspacePath platform chatId uploadId filename =
    workspacePath platform other uploadId' filename') : chatId = other ∧ uploadId = uploadId' := by
  unfold workspacePath at h
  rw [List.append_assoc, List.append_assoc] at h
  have hchat := List.append_cancel_left h
  have hslash (rest : Text) : JsonText.EndsDigits ('/' :: rest) :=
    JsonText.endsDigits_cons (by decide) rest
  have hdash (rest : Text) : JsonText.EndsDigits ('-' :: rest) :=
    JsonText.endsDigits_cons (by decide) rest
  have hreads := congrArg JsonText.readDigits hchat
  rw [JsonText.reads_digits _ _ trivial (hslash _),
    JsonText.reads_digits _ _ trivial (hslash _)] at hreads
  obtain ⟨hchats, hrest⟩ := Prod.mk.inj (Option.some.inj hreads)
  have hreads := congrArg JsonText.readDigits (List.cons.inj hrest).2
  rw [JsonText.reads_digits _ _ trivial (hdash _),
    JsonText.reads_digits _ _ trivial (hdash _)] at hreads
  exact ⟨hchats, (Prod.mk.inj (Option.some.inj hreads)).1⟩

end

/-! ### What a preparation does -/

/-- Rows are of the user and the chat, the uploads are the user's, and a file is named for an upload
whose bytes are at hand, and written with them. -/
def accounts (platform : Platform) (userId chatId : Nat) : Monitor Op Op.Val Fault History where
  allowed history
    | .persist user chat _ _ _ => user = userId ∧ chat = chatId
    | .getUpload _ user => user = userId
    | .write path data => ∃ seen ∈ history.known,
        path = workspacePath platform chatId seen.id seen.filename ∧ data = seen.data
    | _ => True
  next := History.next

/-- Nothing is yielded. -/
def noYield (out : Empty) (_ : History → Prop) (_ : History) : Prop := out.elim

theorem monotone_noYield : Program.Monotone noYield := fun out => out.elim

/-- These uploads have been stored, these of them are pictures, and these files have been written. -/
structure Accounts (platform : Platform) (chatId : Nat) (start : History) (uploadIds : List Nat)
    (urls : List DataUrl) (paths : List Text) (history : History) : Prop where
  persisted : history.persisted = start.persisted ++ uploadIds
  written : history.written = start.written ++ paths
  known : ∀ seen ∈ start.known, seen ∈ history.known
  shows : ∀ url ∈ urls, ∃ seen ∈ history.known, seen.id ∈ uploadIds ∧ url = ⟨seen.mime, seen.data⟩
  files : ∀ path ∈ paths, ∃ seen ∈ history.known, seen.id ∈ uploadIds ∧
    path = workspacePath platform chatId seen.id seen.filename

/-- Some text, and the mentions. -/
def Mentions (paths : List Text) (text : Text) : Prop := ∃ body, text = withMentions body paths

section

variable {platform : Platform} {userId chatId : Nat} {start history : History}
  {uploadIds : List Nat} {urls : List DataUrl} {paths : List Text} {α : Type}

namespace Accounts

theorem nil : Accounts platform chatId history [] [] [] history :=
  ⟨(List.append_nil _).symm, (List.append_nil _).symm, fun _ hseen => hseen, by simp, by simp⟩

theorem persist (h : Accounts platform chatId start uploadIds urls paths history) (seen : Seen) :
    Accounts platform chatId start (uploadIds ++ [seen.id]) urls paths (history.persist seen) where
  persisted := by
    show history.persisted ++ [seen.id] = _
    rw [h.persisted, List.append_assoc]
  written := h.written
  known other hother := List.mem_append_left _ (h.known other hother)
  shows url hurl := by
    obtain ⟨other, hother, hid, hsame⟩ := h.shows url hurl
    exact ⟨other, List.mem_append_left _ hother, List.mem_append_left _ hid, hsame⟩
  files path hpath := by
    obtain ⟨other, hother, hid, hsame⟩ := h.files path hpath
    exact ⟨other, List.mem_append_left _ hother, List.mem_append_left _ hid, hsame⟩

theorem addUrl (h : Accounts platform chatId start uploadIds urls paths history) {seen : Seen}
    (hseen : seen ∈ history.known) (hid : seen.id ∈ uploadIds) :
    Accounts platform chatId start uploadIds (urls ++ [⟨seen.mime, seen.data⟩]) paths history where
  persisted := h.persisted
  written := h.written
  known := h.known
  shows url hurl := by
    rcases List.mem_append.mp hurl with hold | hnew
    · exact h.shows url hold
    · exact ⟨seen, hseen, hid, List.mem_singleton.mp hnew⟩
  files := h.files

theorem write (h : Accounts platform chatId start uploadIds urls paths history) {seen : Seen}
    (hseen : seen ∈ history.known) (hid : seen.id ∈ uploadIds) :
    Accounts platform chatId start uploadIds urls
      (paths ++ [workspacePath platform chatId seen.id seen.filename])
      (history.write (workspacePath platform chatId seen.id seen.filename)) where
  persisted := h.persisted
  written := by
    show history.written ++ [workspacePath platform chatId seen.id seen.filename] = _
    rw [h.written, List.append_assoc]
  known := h.known
  shows := h.shows
  files path hpath := by
    rcases List.mem_append.mp hpath with hold | hnew
    · exact h.files path hold
    · exact ⟨seen, hseen, hid, List.mem_singleton.mp hnew⟩

end Accounts

variable (platform userId chatId) in
/-- Nothing is promised of an exception. -/
abbrev Does (pre : History → Prop) (code : Code α) (post : α → History → Prop) : Prop :=
  Triple (accounts platform userId chatId) noYield (fun _ => pre) code (fun value _ => post value)
    fun _ _ _ => True

section

variable {pre : History → Prop}

/-- Enough is known of the code that comes first. -/
theorem Does.bind {β : Type} {middle : α → History → Prop} {post : β → History → Prop}
    {code : Code α} {continuation : α → Code β} (h : Does platform userId chatId pre code middle)
    (hrest : ∀ value, Does platform userId chatId (middle value) (continuation value) post) :
    Does platform userId chatId pre (code >>= continuation) post :=
  Triple.bind monotone_noYield h hrest

theorem does_pure {post : α → History → Prop} {value : α}
    (h : ∀ history, pre history → post value history) :
    Does platform userId chatId pre (pure value) post := fun _ history hpre => h history hpre

theorem does_await (op : Op) {post : op.Val → History → Prop}
    (hallowed : ∀ history, pre history → (accounts platform userId chatId).allowed history op)
    (hnext : ∀ history value, pre history → post value (history.next op (.ok value))) :
    Does platform userId chatId pre (await op) post := fun _ history hpre =>
  (Async.wp_await Error.raised op).mpr ⟨hallowed history hpre, fun value => hnext history value hpre,
    fun _ => trivial⟩

theorem does_ofExcept {outcome : Except Error α} :
    Does platform userId chatId pre (ofExcept outcome) fun _ => pre := fun locals history hpre => by
  rw [wp_ofExcept]
  cases outcome with
  | ok value => exact hpre
  | error error => trivial

theorem Does.ite {condition : Prop} [Decidable condition] {post : α → History → Prop}
    {code other : Code α} (h : condition → Does platform userId chatId pre code post)
    (hother : ¬condition → Does platform userId chatId pre other post) :
    Does platform userId chatId pre (if condition then code else other) post := by
  split
  · next hcondition => exact h hcondition
  · next hcondition => exact hother hcondition

theorem does_materializeForChat {post : Text → History → Prop} {data : Bytes} {uploadId : Nat}
    {filename : Text}
    (hknown : ∀ history, pre history → ∃ seen ∈ history.known, seen.id = uploadId ∧
      seen.filename = filename ∧ seen.data = data)
    (hpost : ∀ history, pre history → post (workspacePath platform chatId uploadId filename)
      (history.write (workspacePath platform chatId uploadId filename))) :
    Does platform userId chatId pre (materializeForChat platform chatId data uploadId filename)
      post := by
  have hwrite : Does platform userId chatId pre
      (await (.write (workspacePath platform chatId uploadId filename) data)) fun _ =>
        post (workspacePath platform chatId uploadId filename) := by
    refine does_await (.write (workspacePath platform chatId uploadId filename) data)
      (fun history hpre => ?_) fun history _ hpre => hpost history hpre
    obtain ⟨seen, hseen, rfl, rfl, rfl⟩ := hknown history hpre
    exact ⟨seen, hseen, rfl, rfl⟩
  exact hwrite.bind fun _ => does_pure fun _ h => h

end

/-! ### Telegram -/

theorem does_download {fileId : Nat} :
    Does platform userId chatId (Accounts platform chatId start uploadIds urls paths)
      (await (.download fileId)) fun _ => Accounts platform chatId start uploadIds urls paths :=
  does_await (.download fileId) (fun _ _ => trivial) fun _ _ h => h

/-- The bytes of a new row are at hand. -/
theorem does_persist {filename mime : Text} {data : Bytes} :
    Does platform userId chatId (Accounts platform chatId start uploadIds urls paths)
      (await (.persist userId chatId filename mime data)) fun (uploadId : Nat) history =>
        Accounts platform chatId start (uploadIds ++ [uploadId]) urls paths history ∧
          (⟨uploadId, filename, mime, data⟩ : Seen) ∈ history.known :=
  does_await (.persist userId chatId filename mime data) (fun _ _ => ⟨rfl, rfl⟩)
    fun _ (uploadId : Nat) h => ⟨h.persist ⟨uploadId, filename, mime, data⟩,
      List.mem_append_right _ (List.mem_singleton_self _)⟩

theorem does_transcribe {data : Bytes} {filename : Text} :
    Does platform userId chatId (Accounts platform chatId start uploadIds urls paths)
      (await (.transcribe data filename)) fun _ =>
        Accounts platform chatId start uploadIds urls paths :=
  does_await (.transcribe data filename) (fun _ _ => trivial) fun _ _ h => h

theorem does_saveImage {media : Media} {mime : Text} :
    Does platform userId chatId (Accounts platform chatId start uploadIds urls paths)
      (saveImage platform userId chatId media mime) fun image =>
        Accounts platform chatId start (uploadIds ++ [image.2]) (urls ++ [image.1]) paths :=
  does_download.bind fun _ => does_persist.bind fun _ => does_pure fun _ h =>
    h.1.addUrl h.2 (List.mem_append_right _ (List.mem_singleton_self _))

/-- A row is stored, or an exception of the usual kinds is caught. -/
theorem does_persist_caught {filename mime : Text} {data : Bytes} :
    Does platform userId chatId (Accounts platform chatId start uploadIds urls paths)
      (tryCatch (do
        let uploadId ← await (.persist userId chatId filename mime data)
        pure (some uploadId))
        fun error => if error = .raised .caught then pure none else throw error)
      fun (uploadId : Option Nat) =>
        Accounts platform chatId start (uploadIds ++ uploadId.toList) urls paths := by
  intro locals history h
  rw [wp_tryCatch, wp_bind, await, Async.wp_await]
  refine ⟨⟨rfl, rfl⟩, fun (uploadId : Nat) => h.persist ⟨uploadId, filename, mime, data⟩,
    fun fault => ?_⟩
  cases fault with
  | caught =>
      show Accounts platform chatId start (uploadIds ++ []) urls paths history
      rw [List.append_nil]
      exact h
  | other => trivial

theorem does_transcribeAndPersist {media : Media} {mime filename : Text} :
    Does platform userId chatId (Accounts platform chatId start uploadIds urls paths)
      (transcribeAndPersist userId chatId media mime filename) fun spoken =>
        Accounts platform chatId start (uploadIds ++ spoken.2.toList) urls paths :=
  does_download.bind fun _ => does_persist_caught.bind fun (_ : Option Nat) =>
    Does.bind does_transcribe fun _ => does_pure fun _ h => h

theorem does_prepareDocument {document : Media} :
    Does platform userId chatId (Accounts platform chatId start uploadIds urls paths)
      (prepareDocument platform userId chatId document) fun prepared =>
        Accounts platform chatId start (uploadIds ++ prepared.uploadId.toList)
          (urls ++ prepared.attachment.toList) (paths ++ prepared.filePath.toList) := by
  have hwrite (uploadId : Nat) (filename mime : Text) (data : Bytes) :
      Does platform userId chatId (fun history =>
        Accounts platform chatId start (uploadIds ++ [uploadId]) urls paths history ∧
          (⟨uploadId, filename, mime, data⟩ : Seen) ∈ history.known)
        (materializeForChat platform chatId data uploadId filename) fun path =>
          Accounts platform chatId start (uploadIds ++ [uploadId]) urls (paths ++ [path]) :=
    does_materializeForChat (fun history h => ⟨_, h.2, rfl, rfl, rfl⟩) fun history h =>
      h.1.write h.2 (List.mem_append_right _ (List.mem_singleton_self _))
  refine Does.ite (fun _ => does_saveImage.bind fun image => does_pure fun history h => ?_) fun _ =>
    Does.ite (fun _ => does_transcribeAndPersist.bind fun spoken => does_pure fun history h => ?_)
      fun _ => does_download.bind fun (data : Bytes) => does_persist.bind fun (uploadId : Nat) =>
        (hwrite uploadId _ _ data).bind fun path => does_pure fun history h => ?_
  · rw [Option.toList_some, Option.toList_some, Option.toList_none, List.append_nil paths]
    exact h
  · rw [Option.toList_none, Option.toList_none, List.append_nil urls, List.append_nil paths]
    exact h
  · rw [Option.toList_some, Option.toList_some, Option.toList_none, List.append_nil urls]
    exact h

theorem does_addPhoto (parts : Parts) {photo : Option Media} :
    Does platform userId chatId
      (Accounts platform chatId start parts.uploadIds parts.attachments parts.filePaths)
      (addPhoto platform userId chatId photo parts) fun parts =>
        Accounts platform chatId start parts.uploadIds parts.attachments parts.filePaths := by
  cases photo with
  | none => exact does_pure fun _ h => h
  | some media => exact does_saveImage.bind fun _ => does_pure fun _ h => h

variable {parts : Parts}

theorem does_addDocument {document : Option Media} :
    Does platform userId chatId
      (Accounts platform chatId start parts.uploadIds parts.attachments parts.filePaths)
      (addDocument platform userId chatId document parts) fun parts =>
        Accounts platform chatId start parts.uploadIds parts.attachments parts.filePaths := by
  cases document with
  | none => exact does_pure fun _ h => h
  | some document => exact does_prepareDocument.bind fun _ => does_pure fun _ h => h

theorem does_addSpeech {media : Option Media} {mime filename label : Text} :
    Does platform userId chatId
      (Accounts platform chatId start parts.uploadIds parts.attachments parts.filePaths)
      (addSpeech userId chatId media mime filename label parts) fun parts =>
        Accounts platform chatId start parts.uploadIds parts.attachments parts.filePaths := by
  cases media with
  | none => exact does_pure fun _ h => h
  | some media => exact does_transcribeAndPersist.bind fun _ => does_pure fun _ h => h

/-- A message mentions what has been written for it. -/
theorem does_prepareMessage {limit : Option Nat} {message : Message} :
    Does platform userId chatId (Accounts platform chatId start [] [] [])
      (prepareMessage platform userId chatId limit message) fun turn history =>
        turn.quotedText = none ∧ ∃ paths,
          Accounts platform chatId start turn.uploadIds turn.attachments paths history ∧
            Mentions paths turn.text := by
  refine does_ofExcept.bind fun _ => ?_
  refine (does_addPhoto { text := strip (((given message.caption).or message.text).getD []) }).bind
    fun parts => ?_
  refine does_addDocument.bind fun parts => does_addSpeech.bind fun parts =>
    does_addSpeech.bind fun parts => does_addSpeech.bind fun parts => ?_
  exact does_pure fun history h => ⟨rfl, parts.filePaths, h, _, rfl⟩

/-- What a turn of Telegram has to do with what has been done for it. -/
structure PreparedTurn.Accounts (platform : Platform) (chatId : Nat) (turn : PreparedTurn)
    (history : History) : Prop where
  persisted : history.persisted.Perm turn.uploadIds
  shows : ∀ url ∈ turn.attachments, ∃ seen ∈ history.known, seen.id ∈ turn.uploadIds ∧
    url = ⟨seen.mime, seen.data⟩
  files : ∀ path ∈ history.written, ∃ seen ∈ history.known, seen.id ∈ turn.uploadIds ∧
    path = workspacePath platform chatId seen.id seen.filename
  mentions : ∃ paths quotedPaths, history.written = paths ++ quotedPaths ∧ Mentions paths turn.text ∧
    turn.quotedText.elim (quotedPaths = []) (Mentions quotedPaths)

theorem does_prepareTurn {limit : Option Nat} {message : Message} {reply : Option Message} :
    Does platform userId chatId (Accounts platform chatId {} [] [] [])
      (prepareTurn platform userId chatId limit message reply)
      (PreparedTurn.Accounts platform chatId) := by
  refine does_ofExcept.bind fun _ => does_ofExcept.bind fun _ =>
    does_prepareMessage.bind fun current => ?_
  cases reply with
  | none =>
      refine does_pure fun history h => ?_
      obtain ⟨hquoted, paths, haccounts, hmentions⟩ := h
      refine ⟨List.Perm.of_eq haccounts.persisted, haccounts.shows, ?_, paths, [], ?_, hmentions, ?_⟩
      · rw [haccounts.written]
        exact haccounts.files
      · rw [haccounts.written, List.append_nil]
        rfl
      · rw [hquoted]
        rfl
  | some reply =>
      rintro locals history ⟨-, paths, haccounts, hmentions⟩
      refine Does.bind does_prepareMessage (fun quoted => does_pure fun later h => ?_)
        locals history Accounts.nil
      obtain ⟨-, quotedPaths, hquoted, hquotedMentions⟩ := h
      have hwritten : later.written = paths ++ quotedPaths := by
        rw [hquoted.written, haccounts.written]
        rfl
      refine ⟨?_, fun url hurl => ?_, fun path hpath => ?_, paths, quotedPaths, hwritten, hmentions,
        hquotedMentions⟩
      · rw [hquoted.persisted, haccounts.persisted]
        exact List.perm_append_comm
      · rcases List.mem_append.mp hurl with hurl | hurl
        · obtain ⟨seen, hseen, hid, hsame⟩ := hquoted.shows url hurl
          exact ⟨seen, hseen, List.mem_append_left _ hid, hsame⟩
        · obtain ⟨seen, hseen, hid, hsame⟩ := haccounts.shows url hurl
          exact ⟨seen, hquoted.known seen hseen, List.mem_append_right _ hid, hsame⟩
      · rw [hwritten] at hpath
        rcases List.mem_append.mp hpath with hpath | hpath
        · obtain ⟨seen, hseen, hid, hsame⟩ := haccounts.files path hpath
          exact ⟨seen, hquoted.known seen hseen, List.mem_append_right _ hid, hsame⟩
        · obtain ⟨seen, hseen, hid, hsame⟩ := hquoted.files path hpath
          exact ⟨seen, hseen, List.mem_append_left _ hid, hsame⟩

/-! ### The web -/

def isAudio (mime : Text) : Bool := "audio/".toList.isPrefixOf mime

def isImage (mime : Text) : Bool := "image/".toList.isPrefixOf mime

/-- The uploads of the request have been sorted by their types, and each is there as its type wants
it. -/
structure Resolves (platform : Platform) (chatId : Nat) (requested : List Nat)
    (resolved : ResolvedUploads) (history : History) : Prop where
  persisted : history.persisted = []
  written : history.written = resolved.filePaths
  sorted : (resolved.imageIds ++ (resolved.audioIds ++ resolved.fileIds)).Perm requested
  named : ∀ id ∈ requested, ∃ found, (id, found) ∈ history.names
  images : List.Forall₂ (fun id url => ∃ seen ∈ history.known, seen.id = id ∧
    isImage seen.mime = true ∧ url = ⟨seen.mime, seen.data⟩) resolved.imageIds resolved.imageUrls
  audio : ∀ id ∈ resolved.audioIds, ∃ name mime, (id, name, mime) ∈ history.names ∧
    isAudio mime = true
  files : List.Forall₂ (fun id path => ∃ seen ∈ history.known, seen.id = id ∧
    isAudio seen.mime = false ∧ isImage seen.mime = false ∧
      path = workspacePath platform chatId seen.id seen.filename) resolved.fileIds resolved.filePaths

namespace Resolves

variable {requested : List Nat} {resolved : ResolvedUploads} {uploadId : Nat} {filename mime : Text}
  {data : Bytes}

/-- More is known. -/
theorem mono {later : History} (h : Resolves platform chatId requested resolved history)
    (hknown : ∀ seen ∈ history.known, seen ∈ later.known)
    (hnames : ∀ entry ∈ history.names, entry ∈ later.names)
    (hpersisted : later.persisted = history.persisted) (hwritten : later.written = history.written) :
    Resolves platform chatId requested resolved later where
  persisted := hpersisted.trans h.persisted
  written := hwritten.trans h.written
  sorted := h.sorted
  named id hid := by
    obtain ⟨found, hfound⟩ := h.named id hid
    exact ⟨found, hnames _ hfound⟩
  images := h.images.imp fun _ _ h => h.imp fun seen hseen => ⟨hknown seen hseen.1, hseen.2⟩
  audio id hid := by
    obtain ⟨name, mime, hentry, haudio⟩ := h.audio id hid
    exact ⟨name, mime, hnames _ hentry, haudio⟩
  files := h.files.imp fun _ _ h => h.imp fun seen hseen => ⟨hknown seen hseen.1, hseen.2⟩

theorem named_append (h : Resolves platform chatId requested resolved history)
    (hname : (uploadId, filename, mime) ∈ history.names) :
    ∀ id ∈ requested ++ [uploadId], ∃ found, (id, found) ∈ history.names := by
  intro id hid
  rcases List.mem_append.mp hid with hold | hnew
  · exact h.named id hold
  · rw [List.mem_singleton.mp hnew]
    exact ⟨(filename, mime), hname⟩

theorem addAudio (h : Resolves platform chatId requested resolved history)
    (hname : (uploadId, filename, mime) ∈ history.names) (haudio : isAudio mime = true) :
    Resolves platform chatId (requested ++ [uploadId])
      { resolved with audioIds := resolved.audioIds ++ [uploadId] } history where
  persisted := h.persisted
  written := h.written
  sorted := by
    have hmove : (resolved.imageIds ++ (resolved.audioIds ++ [uploadId] ++ resolved.fileIds)).Perm
        (resolved.imageIds ++ (resolved.audioIds ++ resolved.fileIds) ++ [uploadId]) := by
      rw [List.append_assoc resolved.imageIds, List.append_assoc, List.append_assoc]
      exact (List.perm_append_comm.append_left _).append_left _
    exact hmove.trans (h.sorted.append_right _)
  named := h.named_append hname
  images := h.images
  audio id hid := by
    rcases List.mem_append.mp hid with hold | hnew
    · exact h.audio id hold
    · rw [List.mem_singleton.mp hnew]
      exact ⟨filename, mime, hname, haudio⟩
  files := h.files

theorem addImage (h : Resolves platform chatId requested resolved history)
    (hname : (uploadId, filename, mime) ∈ history.names)
    (hseen : (⟨uploadId, filename, mime, data⟩ : Seen) ∈ history.known)
    (himage : isImage mime = true) :
    Resolves platform chatId (requested ++ [uploadId])
      { resolved with
        imageIds := resolved.imageIds ++ [uploadId]
        imageUrls := resolved.imageUrls ++ [⟨mime, data⟩] } history where
  persisted := h.persisted
  written := h.written
  sorted := by
    have hmove : (resolved.imageIds ++ [uploadId] ++ (resolved.audioIds ++ resolved.fileIds)).Perm
        (resolved.imageIds ++ (resolved.audioIds ++ resolved.fileIds) ++ [uploadId]) := by
      rw [List.append_assoc, List.append_assoc]
      exact List.perm_append_comm.append_left _
    exact hmove.trans (h.sorted.append_right _)
  named := h.named_append hname
  images := List.rel_append h.images (.cons ⟨_, hseen, rfl, himage, rfl⟩ .nil)
  audio := h.audio
  files := h.files

theorem addFile (h : Resolves platform chatId requested resolved history)
    (hname : (uploadId, filename, mime) ∈ history.names)
    (hseen : (⟨uploadId, filename, mime, data⟩ : Seen) ∈ history.known)
    (haudio : isAudio mime = false) (himage : isImage mime = false) :
    Resolves platform chatId (requested ++ [uploadId])
      { resolved with
        filePaths := resolved.filePaths ++ [workspacePath platform chatId uploadId filename]
        fileIds := resolved.fileIds ++ [uploadId] }
      (history.write (workspacePath platform chatId uploadId filename)) where
  persisted := h.persisted
  written := by
    show history.written ++ [workspacePath platform chatId uploadId filename] = _
    rw [h.written]
  sorted := by
    have hmove : (resolved.imageIds ++ (resolved.audioIds ++ (resolved.fileIds ++ [uploadId]))).Perm
        (resolved.imageIds ++ (resolved.audioIds ++ resolved.fileIds) ++ [uploadId]) := by
      rw [List.append_assoc, List.append_assoc]
    exact hmove.trans (h.sorted.append_right _)
  named := h.named_append hname
  images := h.images
  audio := h.audio
  files := List.rel_append h.files (.cons ⟨_, hseen, rfl, haudio, himage, rfl⟩ .nil)

end Resolves

variable {resolved : ResolvedUploads} {requested : List Nat}

theorem does_getUpload {uploadId : Nat} :
    Does platform userId chatId (Resolves platform chatId requested resolved)
      (await (.getUpload uploadId userId)) fun (upload : Option (Text × Text)) history =>
        Resolves platform chatId requested resolved history ∧
          ∀ found, upload = some found → (uploadId, found) ∈ history.names := by
  refine does_await (.getUpload uploadId userId) (fun _ _ => rfl)
    fun history (upload : Option (Text × Text)) h => ?_
  cases upload with
  | none => exact ⟨h, by simp⟩
  | some found =>
      refine ⟨h.mono (fun _ hseen => hseen) (fun _ => List.mem_append_left _) rfl rfl,
        fun other hother => ?_⟩
      rw [← Option.some.inj hother]
      exact List.mem_append_right _ (List.mem_singleton_self _)

theorem does_fetch {uploadId : Nat} {filename mime : Text} :
    Does platform userId chatId (fun history => Resolves platform chatId requested resolved history ∧
        (uploadId, filename, mime) ∈ history.names)
      (await (.fetch uploadId)) fun (data : Bytes) history =>
        Resolves platform chatId requested resolved history ∧
          (uploadId, filename, mime) ∈ history.names ∧
            (⟨uploadId, filename, mime, data⟩ : Seen) ∈ history.known := by
  refine does_await (.fetch uploadId) (fun _ _ => trivial) fun history (data : Bytes) h =>
    ⟨h.1.mono (fun _ => List.mem_append_left _) (fun _ hentry => hentry) rfl rfl, h.2, ?_⟩
  refine List.mem_append_right _ (List.mem_map.mpr ⟨(uploadId, filename, mime), ?_, rfl⟩)
  exact List.mem_filter.mpr ⟨h.2, by simp⟩

theorem does_resolveUpload {uploadId : Nat} :
    Does platform userId chatId (Resolves platform chatId requested resolved)
      (resolveUpload platform userId chatId uploadId resolved)
      (Resolves platform chatId (requested ++ [uploadId])) := by
  refine does_getUpload.bind fun (upload : Option (Text × Text)) => ?_
  cases upload with
  | none => exact fun _ _ _ => trivial
  | some found =>
      obtain ⟨filename, mime⟩ := found
      refine Does.ite (fun haudio => does_pure fun history h => h.1.addAudio (h.2 _ rfl) haudio)
        fun haudio => ?_
      have hfetch : Does platform userId chatId (fun history =>
          Resolves platform chatId requested resolved history ∧
            ∀ found, some (filename, mime) = some found → (uploadId, found) ∈ history.names)
          (await (.fetch uploadId)) fun (data : Bytes) history =>
            Resolves platform chatId requested resolved history ∧
              (uploadId, filename, mime) ∈ history.names ∧
                (⟨uploadId, filename, mime, data⟩ : Seen) ∈ history.known :=
        fun locals history h => does_fetch locals history ⟨h.1, h.2 _ rfl⟩
      refine hfetch.bind fun (data : Bytes) => Does.ite
        (fun himage => does_pure fun history h => h.1.addImage h.2.1 h.2.2 himage) fun himage => ?_
      have hwrite : Does platform userId chatId (fun history =>
          Resolves platform chatId requested resolved history ∧
            (uploadId, filename, mime) ∈ history.names ∧
              (⟨uploadId, filename, mime, data⟩ : Seen) ∈ history.known)
          (materializeForChat platform chatId data uploadId filename) fun path =>
            Resolves platform chatId (requested ++ [uploadId]) { resolved with
              filePaths := resolved.filePaths ++ [path]
              fileIds := resolved.fileIds ++ [uploadId] } :=
        does_materializeForChat (fun history h => ⟨_, h.2.2, rfl, rfl, rfl⟩) fun history h =>
          h.1.addFile h.2.1 h.2.2 (Bool.eq_false_iff.mpr haudio) (Bool.eq_false_iff.mpr himage)
      exact hwrite.bind fun path => does_pure fun _ h => h

theorem does_resolveUploads (rest : List Nat) (resolved : ResolvedUploads) :
    Does platform userId chatId (Resolves platform chatId requested resolved)
      (resolveUploads platform userId chatId rest resolved)
      (Resolves platform chatId (requested ++ rest)) := by
  induction rest generalizing requested resolved with
  | nil =>
      rw [List.append_nil]
      exact does_pure fun _ h => h
  | cons uploadId rest ih =>
      rw [List.append_cons]
      exact does_resolveUpload.bind ih

def PreparedRunTurn.Accounts (platform : Platform) (chatId : Nat) (requested : List Nat)
    (turn : PreparedRunTurn) (history : History) : Prop :=
  Resolves platform chatId requested turn.uploads history ∧ Mentions turn.uploads.filePaths turn.text

theorem does_prepareRunTurn {text : Text} :
    Does platform userId chatId (Accounts platform chatId {} [] [] [])
      (prepareRunTurn platform userId chatId text requested)
      (PreparedRunTurn.Accounts platform chatId requested) := by
  have hresolve : Does platform userId chatId (Accounts platform chatId {} [] [] [])
      (resolveUploads platform userId chatId requested {})
      (Resolves platform chatId requested) := fun locals history h =>
    does_resolveUploads requested {} locals history
      ⟨h.persisted, h.written, .refl _, by simp, .nil, by simp, .nil⟩
  exact hresolve.bind fun _ => does_pure fun _ h => ⟨h, _, rfl⟩

end

/-! ### Side by side -/

def Prepared.Accounts (platform : Platform) (chatId : Nat) : Prepared → History → Prop
  | .telegram turn => turn.Accounts platform chatId
  | .web requested turn => turn.Accounts platform chatId requested

def Upload.seen (upload : Upload) : Seen := ⟨upload.id, upload.filename, upload.mime, upload.data⟩

/-- The path is named for the upload, in this chat. -/
def Upload.Names (platform : Platform) (chatId : Nat) (upload : Upload) (path : Text) : Prop :=
  path = workspacePath platform chatId upload.id upload.filename

namespace Process

/-- The thread is between the opening of its file and the writing. -/
def Writing (process : Process) (path : Text) : Prop :=
  process.phase = .opened ∧ ∃ data rest, process.program = .call (.write path data) rest

def HasWritten (process : Process) (path : Text) : Prop :=
  path ∈ process.history.written ∨
    process.phase = .written ∧ ∃ data rest, process.program = .call (.write path data) rest

/-- The process after an answer. -/
def proceed (process : Process) (op : Op) (answer : Except Fault op.Val)
    (program : Program Op Op.Val Fault Empty (Except Error Prepared × Unit)) : Process :=
  { process with program, phase := .queued, history := process.history.next op answer }

/-- A process does what its code says, and has what it knows from the table. -/
structure Fits (platform : Platform) (world : World) (process : Process) : Prop where
  keeps : process.program.wp (accounts platform process.userId process.chatId) noYield
    (fun result history => ∀ prepared, result.1 = .ok prepared →
      prepared.Accounts platform process.chatId history) process.history
  known : ∀ seen ∈ process.history.known, ∃ upload ∈ world.uploads, upload.seen = seen
  names : ∀ entry ∈ process.history.names, ∃ upload ∈ world.uploads,
    upload.userId = process.userId ∧ (upload.id, upload.filename, upload.mime) = entry
  persisted : ∀ uploadId ∈ process.history.persisted, ∃ upload ∈ world.uploads,
    upload.id = uploadId ∧ upload.userId = process.userId ∧ upload.chatId = some process.chatId

end Process

namespace World

/-- A thread is about to write the file, or may be. -/
def Busy (world : World) (path : Text) : Prop :=
  (∃ process ∈ world.processes, process.Writing path) ∨ ∃ data, (path, data) ∈ world.lingering

/-- The path is named for an upload of these bytes. -/
def BytesOf (platform : Platform) (world : World) (path : Text) (data : Bytes) : Prop :=
  ∃ upload ∈ world.uploads, ∃ chatId, upload.Names platform chatId path ∧ upload.data = data

/-- The file is there, and it is complete when nobody writes it or has left it unfinished. -/
def Stands (platform : Platform) (world : World) (path : Text) : Prop :=
  (world.files path).isSome = true ∧ (world.Busy path ∨ path ∈ world.unfinished ∨
    ∃ data, world.BytesOf platform path data ∧ world.files path = some data)

structure Sound (platform : Platform) (world : World) : Prop where
  unique : ∀ upload ∈ world.uploads, ∀ other ∈ world.uploads, upload.id = other.id → upload = other
  fits : ∀ process ∈ world.processes, process.Fits platform world
  files : ∀ path contents, world.files path = some contents →
    ∃ data, world.BytesOf platform path data ∧ contents <+: data
  lingering : ∀ entry ∈ world.lingering, world.BytesOf platform entry.1 entry.2
  stands : ∀ process ∈ world.processes, ∀ path, process.HasWritten path → world.Stands platform path

end World

section

variable {platform : Platform} {world next : World} {process changed : Process} {index : Nat}
  {path : Text} {data contents : Bytes}

/-- More uploads. -/
theorem Process.Fits.mono (h : process.Fits platform world)
    (huploads : ∀ upload ∈ world.uploads, upload ∈ next.uploads) : process.Fits platform next where
  keeps := h.keeps
  known seen hseen := by
    obtain ⟨upload, hupload, hsame⟩ := h.known seen hseen
    exact ⟨upload, huploads upload hupload, hsame⟩
  names entry hentry := by
    obtain ⟨upload, hupload, hsame⟩ := h.names entry hentry
    exact ⟨upload, huploads upload hupload, hsame⟩
  persisted uploadId hid := by
    obtain ⟨upload, hupload, hrow⟩ := h.persisted uploadId hid
    exact ⟨upload, huploads upload hupload, hrow⟩

namespace World

theorem BytesOf.mono (h : world.BytesOf platform path data)
    (huploads : ∀ upload ∈ world.uploads, upload ∈ next.uploads) :
    next.BytesOf platform path data := by
  obtain ⟨upload, hupload, hnames⟩ := h
  exact ⟨upload, huploads upload hupload, hnames⟩

/-- A path is of one upload. -/
theorem Sound.bytesOf_unique (h : world.Sound platform) {other : Bytes}
    (hdata : world.BytesOf platform path data) (hother : world.BytesOf platform path other) :
    data = other := by
  obtain ⟨upload, hupload, chatId, hnames, rfl⟩ := hdata
  obtain ⟨another, hanother, chatId', hnames', rfl⟩ := hother
  have hid : upload.id = another.id := (workspacePath_inj (hnames.symm.trans hnames')).2
  rw [h.unique upload hupload another hanother hid]

theorem Stands.mono (h : world.Stands platform path) (hfiles : next.files path = world.files path)
    (huploads : ∀ upload ∈ world.uploads, upload ∈ next.uploads)
    (hbusy : world.Busy path → next.Busy path)
    (hunfinished : path ∈ world.unfinished → path ∈ next.unfinished) :
    next.Stands platform path := by
  refine ⟨hfiles ▸ h.1, h.2.imp hbusy (Or.imp hunfinished fun hdata => ?_)⟩
  obtain ⟨data, hof, hcontents⟩ := hdata
  exact ⟨data, hof.mono huploads, hfiles.trans hcontents⟩

theorem mem_set_or {processes : List Process} (hprocess : processes[index]? = some process)
    {other : Process} (hother : other ∈ processes) :
    other = process ∨ other ∈ processes.set index changed := by
  obtain ⟨place, hplace⟩ := List.mem_iff_getElem?.mp hother
  by_cases heq : index = place
  · subst heq
    exact .inl (Option.some.inj (hplace.symm.trans hprocess))
  · exact .inr (List.mem_of_getElem? ((List.getElem?_set_ne heq).trans hplace))

/-- Who writes a file goes on writing it, when another process does something. -/
theorem Busy.set (h : world.Busy path) (hprocess : world.processes[index]? = some process)
    (hnext : next.processes = world.processes.set index changed)
    (hlingering : ∀ entry ∈ world.lingering, entry ∈ next.lingering)
    (hwriting : process.Writing path → next.Busy path) : next.Busy path := by
  rcases h with ⟨other, hother, hpath⟩ | ⟨data, hdata⟩
  · rcases mem_set_or hprocess hother with rfl | hkept
    · exact hwriting hpath
    · exact .inl ⟨other, hnext ▸ hkept, hpath⟩
  · exact .inr ⟨data, hlingering _ hdata⟩

/-- A process does something. -/
theorem Sound.set (h : world.Sound platform) (hprocess : world.processes[index]? = some process)
    (hnext : next.processes = world.processes.set index changed)
    (huploads : ∀ upload ∈ world.uploads, upload ∈ next.uploads)
    (hunique : ∀ upload ∈ next.uploads, ∀ other ∈ next.uploads,
      upload.id = other.id → upload = other)
    (hfits : changed.Fits platform next)
    (hfiles : ∀ path contents, next.files path = some contents →
      ∃ data, next.BytesOf platform path data ∧ contents <+: data)
    (hlingering : ∀ entry ∈ next.lingering, next.BytesOf platform entry.1 entry.2)
    (hstands : ∀ path, world.Stands platform path → next.Stands platform path)
    (hwritten : ∀ path, changed.HasWritten path →
      process.HasWritten path ∨ next.Stands platform path) : next.Sound platform where
  unique := hunique
  fits other hother := by
    rw [hnext] at hother
    rcases List.mem_or_eq_of_mem_set hother with hold | rfl
    · exact (h.fits other hold).mono huploads
    · exact hfits
  files := hfiles
  lingering := hlingering
  stands other hother path hpath := by
    rw [hnext] at hother
    rcases List.mem_or_eq_of_mem_set hother with hold | rfl
    · exact hstands path (h.stands other hold path hpath)
    · rcases hwritten path hpath with hbefore | hafter
      · exact hstands path (h.stands process (List.mem_of_getElem? hprocess) path hbefore)
      · exact hafter

/-! #### The files -/

theorem files_setFile {other : Text} (hne : other ≠ path) :
    (world.setFile path contents).files other = world.files other := Function.update_of_ne hne ..

theorem files_setFile_self : (world.setFile path contents).files path = some contents :=
  Function.update_self ..

/-- A file that begins as the upload does is written over with the beginning of the upload. -/
theorem splice_prefix (hcontents : contents <+: data) (count : Nat) :
    data.take count ++ contents.drop (data.take count).length <+: data := by
  obtain ⟨rest, rfl⟩ := hcontents
  rcases Nat.le_total count contents.length with hle | hge
  · rw [List.take_append_of_le_length hle, List.length_take_of_le hle, List.take_append_drop]
    exact List.prefix_append contents rest
  · have hlength : contents.length ≤ ((contents ++ rest).take count).length := by
      rw [List.length_take, List.length_append]
      omega
    rw [List.drop_eq_nil_of_le hlength, List.append_nil]
    exact List.take_prefix _ _

/-- What a thread makes of a file is of the upload. -/
theorem Sound.files_splice (h : world.Sound platform) (hdata : world.BytesOf platform path data)
    (count : Nat) {other : Text} {after : Bytes}
    (hafter : (world.splice path (data.take count)).files other = some after) :
    ∃ data, world.BytesOf platform other data ∧ after <+: data := by
  by_cases heq : other = path
  · rw [heq, World.splice, files_setFile_self] at hafter
    obtain rfl := Option.some.inj hafter
    rw [heq]
    refine ⟨data, hdata, splice_prefix ?_ count⟩
    cases hfile : world.files path with
    | none => exact List.nil_prefix
    | some contents =>
        obtain ⟨bytes, hbytes, hbegins⟩ := h.files path contents hfile
        rw [h.bytesOf_unique hdata hbytes]
        exact hbegins
  · rw [World.splice, files_setFile heq] at hafter
    exact h.files other after hafter

theorem Sound.files_truncate (h : world.Sound platform) (hdata : world.BytesOf platform path data)
    {other : Text} {after : Bytes} (hafter : (world.truncate path).files other = some after) :
    ∃ data, world.BytesOf platform other data ∧ after <+: data := by
  by_cases heq : other = path
  · rw [heq, World.truncate, files_setFile_self] at hafter
    rw [heq, ← Option.some.inj hafter]
    exact ⟨data, hdata, List.nil_prefix⟩
  · rw [World.truncate, files_setFile heq] at hafter
    exact h.files other after hafter

/-- A whole write leaves the whole upload. -/
theorem Sound.splice_all (h : world.Sound platform) (hdata : world.BytesOf platform path data) :
    (world.splice path data).files path = some data := by
  have hshort : ((world.files path).getD []).drop data.length = [] := by
    apply List.drop_eq_nil_of_le
    cases hfile : world.files path with
    | none => exact Nat.zero_le _
    | some contents =>
        obtain ⟨bytes, hbytes, hbegins⟩ := h.files path contents hfile
        rw [h.bytesOf_unique hdata hbytes]
        exact hbegins.length_le
  rw [World.splice, files_setFile_self, hshort, List.append_nil]

/-! #### Threads -/

variable {rest : Except Fault Unit → Program Op Op.Val Fault Empty (Except Error Prepared × Unit)}

/-- A process writes what an upload holds. -/
theorem bytesOf_of_fits (h : process.Fits platform world)
    (hprogram : process.program = .call (.write path data) rest) :
    world.BytesOf platform path data := by
  have hkeeps := h.keeps
  rw [hprogram] at hkeeps
  obtain ⟨seen, hseen, hpath, rfl⟩ := hkeeps.1
  obtain ⟨upload, hupload, rfl⟩ := h.known seen hseen
  exact ⟨upload, hupload, process.chatId, hpath, rfl⟩

theorem eq_of_writing (hprogram : process.program = .call (.write path data) rest) {other : Text}
    (hother : ∃ data rest, process.program = .call (.write other data) rest) : other = path := by
  obtain ⟨_, _, hother⟩ := hother
  exact (Op.write.inj (Program.call.inj (hother.symm.trans hprogram)).1).1

theorem Sound.opens (h : world.Sound platform) (hprocess : world.processes[index]? = some process)
    (hprogram : process.program = .call (.write path data) rest) (hphase : process.phase = .queued) :
    ({ world.truncate path with
      processes := world.processes.set index { process with phase := .opened } } :
      World).Sound platform := by
  have hfits := h.fits process (List.mem_of_getElem? hprocess)
  have hdata := bytesOf_of_fits hfits hprogram
  have hopened : { process with phase := .opened } ∈
      world.processes.set index { process with phase := .opened } :=
    List.mem_of_getElem? (List.getElem?_set_self (List.getElem?_eq_some_iff.mp hprocess).1)
  refine h.set hprocess rfl (fun _ hupload => hupload) h.unique
    ⟨hfits.keeps, hfits.known, hfits.names, hfits.persisted⟩
    (fun other after hafter => h.files_truncate hdata hafter) h.lingering
    (fun other hstands => ?_) fun other hwritten => ?_
  · by_cases heq : other = path
    · subst heq
      refine ⟨?_, .inl (.inl ⟨_, hopened, rfl, data, rest, hprogram⟩)⟩
      exact Option.isSome_iff_exists.mpr ⟨_, files_setFile_self⟩
    · refine hstands.mono (files_setFile heq) (fun _ hupload => hupload) (fun hbusy => ?_) id
      exact hbusy.set hprocess rfl (fun _ hentry => hentry) fun hwriting =>
        absurd (hphase.symm.trans hwriting.1) (by decide)
  · rcases hwritten with hold | ⟨hwritten, -⟩
    · exact .inl (.inl hold)
    · cases hwritten

theorem Sound.writes (h : world.Sound platform) (hprocess : world.processes[index]? = some process)
    (hprogram : process.program = .call (.write path data) rest) :
    ({ world.splice path data with
      unfinished := world.unfinished.filter (· ≠ path)
      processes := world.processes.set index { process with phase := .written } } :
      World).Sound platform := by
  have hfits := h.fits process (List.mem_of_getElem? hprocess)
  have hdata := bytesOf_of_fits hfits hprogram
  have hall : (world.splice path data).files path = some data := h.splice_all hdata
  have hafter : World.Stands platform { world.splice path data with
      unfinished := world.unfinished.filter (· ≠ path)
      processes := world.processes.set index { process with phase := .written } } path :=
    ⟨Option.isSome_iff_exists.mpr ⟨data, hall⟩, .inr (.inr ⟨data, hdata, hall⟩)⟩
  refine h.set hprocess rfl (fun _ hupload => hupload) h.unique
    ⟨hfits.keeps, hfits.known, hfits.names, hfits.persisted⟩ (fun other after hafter => ?_)
    h.lingering (fun other hstands => ?_) fun other hwritten => ?_
  · refine h.files_splice hdata data.length ?_
    rw [List.take_length]
    exact hafter
  · by_cases heq : other = path
    · rw [heq]
      exact hafter
    · refine hstands.mono (files_setFile heq) (fun _ hupload => hupload) (fun hbusy => ?_)
        fun hleft => List.mem_filter.mpr ⟨hleft, decide_eq_true heq⟩
      exact hbusy.set hprocess rfl (fun _ hentry => hentry) fun hwriting =>
        absurd (eq_of_writing hprogram hwriting.2) heq
  · rcases hwritten with hold | ⟨-, hwriting⟩
    · exact .inl (.inl hold)
    · have hother : other = path := by
        refine eq_of_writing hprogram ?_
        exact hwriting
      rw [hother]
      exact .inr hafter

/-- Whoever nobody waits for changes a file of an upload. -/
theorem Sound.setFile (h : world.Sound platform) (hbusy : world.Busy path)
    (hfiles : ∀ other after, (world.setFile path contents).files other = some after →
      ∃ data, world.BytesOf platform other data ∧ after <+: data) :
    (world.setFile path contents).Sound platform where
  unique := h.unique
  fits other hother := (h.fits other hother).mono fun _ hupload => hupload
  files := hfiles
  lingering := h.lingering
  stands other hother file hfile := by
    have hbefore := h.stands other hother file hfile
    by_cases heq : file = path
    · subst heq
      exact ⟨Option.isSome_iff_exists.mpr ⟨contents, files_setFile_self⟩, .inl hbusy⟩
    · exact hbefore.mono (files_setFile heq) (fun _ hupload => hupload) id id

/-- A thread that nobody waits for is over; its file is whole, or left unfinished. -/
theorem Sound.ends (h : world.Sound platform) (hentry : world.lingering[index]? = some (path, data)) :
    ({ world with
      lingering := world.lingering.eraseIdx index
      unfinished :=
        if world.files path = some data then world.unfinished else path :: world.unfinished } :
      World).Sound platform where
  unique := h.unique
  fits other hother := (h.fits other hother).mono fun _ hupload => hupload
  files := h.files
  lingering entry hmem := h.lingering entry (List.mem_of_mem_eraseIdx hmem)
  stands other hother file hfile := by
    obtain ⟨hthere, hbusy | hleft | hwhole⟩ := h.stands other hother file hfile
    · refine ⟨hthere, ?_⟩
      rcases hbusy with hwriting | ⟨bytes, hbytes⟩
      · exact .inl (.inl hwriting)
      obtain ⟨place, hplace⟩ := List.mem_iff_getElem?.mp hbytes
      by_cases heq : place = index
      · subst heq
        obtain ⟨rfl, rfl⟩ := Prod.mk.inj (Option.some.inj (hentry.symm.trans hplace))
        have hdata : world.BytesOf platform path data := h.lingering _ hbytes
        right
        by_cases hwhole : world.files path = some data
        · exact .inr ⟨data, hdata, hwhole⟩
        · left
          rw [if_neg hwhole]
          exact List.mem_cons_self
      · exact .inl (.inr ⟨bytes, List.mem_eraseIdx_iff_getElem?.mpr ⟨place, heq, hplace⟩⟩)
    · refine ⟨hthere, .inr (.inl ?_)⟩
      split
      · exact hleft
      · exact List.mem_cons_of_mem _ hleft
    · exact ⟨hthere, .inr (.inr hwhole)⟩

theorem Sound.insert {upload : Upload} (h : world.Sound platform)
    (hinsert : world.insert upload = some next) : next.Sound platform := by
  unfold World.insert at hinsert
  split at hinsert
  · cases hinsert
  · next hnone =>
      cases hinsert
      have hfresh : ∀ row ∈ world.uploads, row.id ≠ upload.id := by
        simpa [World.upload?] using hnone
      have hold : ∀ row ∈ world.uploads, row ∈ world.uploads ++ [upload] := fun row hrow =>
        List.mem_append_left _ hrow
      refine ⟨fun one hone two htwo hid => ?_, fun process hprocess =>
        (h.fits process hprocess).mono hold, fun path contents hcontents => ?_, fun entry hentry =>
        (h.lingering entry hentry).mono hold, fun process hprocess path hpath =>
        (h.stands process hprocess path hpath).mono rfl hold id id⟩
      · rcases List.mem_append.mp hone with hold' | hnew <;>
          rcases List.mem_append.mp htwo with hother | hlast
        · exact h.unique one hold' two hother hid
        · rw [List.mem_singleton.mp hlast] at hid
          exact absurd hid (hfresh one hold')
        · rw [List.mem_singleton.mp hnew] at hid
          exact absurd hid.symm (hfresh two hother)
        · rw [List.mem_singleton.mp hnew, List.mem_singleton.mp hlast]
      · obtain ⟨data, hdata, hbegins⟩ := h.files path contents hcontents
        exact ⟨data, hdata.mono hold, hbegins⟩

/-- A preparation begins, and nothing is done yet. -/
theorem Sound.begin {userId chatId : Nat} {code : Code Prepared} (h : world.Sound platform)
    (hcode : Does platform userId chatId (Accounts platform chatId {} [] [] []) code
      (Prepared.Accounts platform chatId)) : (world.begin userId chatId code).Sound platform := by
  have hnew : Process.Fits platform (world.begin userId chatId code)
      { userId, chatId, program := code () } := by
    refine ⟨?_, by simp, by simp, by simp⟩
    refine Program.wp_mono monotone_noYield (fun result history hpost prepared hprepared => ?_)
      (hcode () {} .nil)
    rw [hprepared] at hpost
    exact hpost
  refine ⟨h.unique, fun process hprocess => ?_, h.files, h.lingering,
    fun process hprocess path hpath => ?_⟩
  · rcases List.mem_append.mp hprocess with hold | hlast
    · exact (h.fits process hold).mono fun _ hrow => hrow
    · rw [List.mem_singleton.mp hlast]
      exact hnew
  · rcases List.mem_append.mp hprocess with hold | hlast
    · refine (h.stands process hold path hpath).mono rfl (fun _ hupload => hupload)
        (fun hbusy => hbusy.imp_left fun hwriting => ?_) id
      obtain ⟨other, hother, hwriting⟩ := hwriting
      exact ⟨other, List.mem_append_left _ hother, hwriting⟩
    · rw [List.mem_singleton.mp hlast] at hpath
      rcases hpath with hwritten | ⟨hphase, -⟩
      · cases hwritten
      · cases hphase

end World

/-! #### Answers -/

section

variable {op : Op} {answer : Except Fault op.Val}
  {rest : Except Fault op.Val → Program Op Op.Val Fault Empty (Except Error Prepared × Unit)}

/-- What an operation allows, and the code that follows. -/
theorem Process.Fits.call (h : process.Fits platform world)
    (hprogram : process.program = .call op rest) :
    (accounts platform process.userId process.chatId).allowed process.history op ∧
      ∀ answer, (rest answer).wp (accounts platform process.userId process.chatId) noYield
        (fun result history => ∀ prepared, result.1 = .ok prepared →
          prepared.Accounts platform process.chatId history) (process.history.next op answer) := by
  have hkeeps := h.keeps
  rw [hprogram] at hkeeps
  exact hkeeps

/-- An answer that nothing is learned from. -/
theorem Process.Fits.quiet (h : process.Fits platform world)
    (hprogram : process.program = .call op rest)
    (hknown : (process.history.next op answer).known = process.history.known)
    (hnames : (process.history.next op answer).names = process.history.names)
    (hpersisted : (process.history.next op answer).persisted = process.history.persisted) :
    (process.proceed op answer (rest answer)).Fits platform world where
  keeps := (h.call hprogram).2 answer
  known seen hseen := h.known seen (hknown ▸ hseen)
  names entry hentry := h.names entry (hnames ▸ hentry)
  persisted uploadId hid := h.persisted uploadId (hpersisted ▸ hid)

/-- A process goes on, and leaves the files alone. -/
theorem World.Sound.proceed (h : world.Sound platform)
    (hprocess : world.processes[index]? = some process) (hprogram : process.program = .call op rest)
    (hop : ∀ path data, op ≠ .write path data)
    (hfits : (process.proceed op answer (rest answer)).Fits platform world)
    (hwritten : (process.history.next op answer).written = process.history.written) :
    ({ world with
      processes := world.processes.set index (process.proceed op answer (rest answer)) } :
      World).Sound platform := by
  refine h.set hprocess rfl (fun _ hupload => hupload) h.unique
    (hfits.mono fun _ hupload => hupload) h.files h.lingering
    (fun other hstands => hstands.mono rfl (fun _ hupload => hupload) (fun hbusy =>
      hbusy.set hprocess rfl (fun _ hentry => hentry) fun hwriting => ?_) id) fun other hother => ?_
  · obtain ⟨-, data, after, hwrite⟩ := hwriting
    exact absurd (Program.call.inj (hprogram.symm.trans hwrite)).1 (hop other data)
  · rcases hother with hold | ⟨hphase, -⟩
    · exact .inl (.inl (hwritten ▸ hold))
    · cases hphase

end

theorem Process.Fits.persist {user chatId uploadId : Nat} {filename mime : Text}
    {rest : Except Fault Nat → Program Op Op.Val Fault Empty (Except Error Prepared × Unit)}
    (h : process.Fits platform world)
    (hprogram : process.program = .call (.persist user chatId filename mime data) rest)
    (hold : ∀ row ∈ world.uploads, row ∈ next.uploads)
    (hnew : (⟨uploadId, user, some chatId, filename, mime, data⟩ : Upload) ∈ next.uploads) :
    (process.proceed (.persist user chatId filename mime data) (.ok uploadId)
      (rest (.ok uploadId))).Fits platform next := by
  obtain ⟨⟨huser, hchat⟩, hkeeps⟩ := h.call hprogram
  have hmono : process.Fits platform next := h.mono hold
  refine ⟨hkeeps (.ok uploadId), fun seen hseen => ?_, hmono.names, fun id hid => ?_⟩
  · rcases List.mem_append.mp hseen with hseen | hseen
    · exact hmono.known seen hseen
    · rw [List.mem_singleton.mp hseen]
      exact ⟨_, hnew, rfl⟩
  · rcases List.mem_append.mp hid with hid | hid
    · exact hmono.persisted id hid
    · rw [List.mem_singleton.mp hid]
      exact ⟨_, hnew, rfl, huser, congrArg some hchat⟩

theorem World.insert_eq {upload : Upload} (h : world.insert upload = some next) :
    next = { world with uploads := world.uploads ++ [upload] } := by
  unfold World.insert at h
  split at h
  · cases h
  · exact (Option.some.inj h).symm

theorem World.mem_of_upload? {uploadId : Nat} {upload : Upload}
    (h : world.upload? uploadId = some upload) : upload ∈ world.uploads ∧ upload.id = uploadId :=
  ⟨List.mem_of_find?_eq_some h, by simpa using List.find?_some h⟩

/-- A user sees his own uploads. -/
theorem World.visible_eq_some {uploadId user : Nat} {found : Text × Text}
    (h : world.visible uploadId user = some found) : ∃ upload ∈ world.uploads,
      upload.userId = user ∧ (upload.id, upload.filename, upload.mime) = (uploadId, found) := by
  obtain ⟨upload, hfilter, rfl⟩ := Option.map_eq_some_iff.mp h
  obtain ⟨hfound, hmine⟩ := Option.filter_eq_some_iff.mp hfilter
  obtain ⟨hupload, rfl⟩ := World.mem_of_upload? hfound
  rw [Bool.and_eq_true, decide_eq_true_eq] at hmine
  exact ⟨upload, hupload, hmine.1, rfl⟩

theorem Process.Fits.getUpload {uploadId user : Nat} {found : Text × Text}
    {rest : Except Fault (Option (Text × Text)) →
      Program Op Op.Val Fault Empty (Except Error Prepared × Unit)}
    (h : process.Fits platform world)
    (hprogram : process.program = .call (.getUpload uploadId user) rest)
    (hfound : world.visible uploadId user = some found) :
    (process.proceed (.getUpload uploadId user) (.ok (some found))
      (rest (.ok (some found)))).Fits platform world := by
  obtain ⟨huser, hkeeps⟩ := h.call hprogram
  refine ⟨hkeeps (.ok (some found)), h.known, fun entry hentry => ?_, h.persisted⟩
  rcases List.mem_append.mp hentry with hentry | hentry
  · exact h.names entry hentry
  · obtain ⟨upload, hupload, hmine, hnamed⟩ := World.visible_eq_some hfound
    rw [List.mem_singleton.mp hentry]
    exact ⟨upload, hupload, hmine.trans huser, hnamed⟩

theorem Process.Fits.fetch {uploadId : Nat} {upload : Upload}
    {rest : Except Fault Bytes → Program Op Op.Val Fault Empty (Except Error Prepared × Unit)}
    (h : process.Fits platform world) (hprogram : process.program = .call (.fetch uploadId) rest)
    (hsound : world.Sound platform) (hupload : world.upload? uploadId = some upload) :
    (process.proceed (.fetch uploadId) (.ok upload.data) (rest (.ok upload.data))).Fits platform
      world := by
  refine ⟨(h.call hprogram).2 (.ok upload.data), fun seen hseen => ?_, h.names, h.persisted⟩
  rcases List.mem_append.mp hseen with hseen | hseen
  · exact h.known seen hseen
  · obtain ⟨entry, hentry, rfl⟩ := List.mem_map.mp hseen
    obtain ⟨hentry, heq⟩ := List.mem_filter.mp hentry
    obtain ⟨row, hrow, -, rfl⟩ := h.names entry hentry
    obtain ⟨hmem, huploadId⟩ := World.mem_of_upload? hupload
    obtain rfl : row = upload :=
      hsound.unique row hrow upload hmem ((of_decide_eq_true heq).trans huploadId.symm)
    exact ⟨row, hmem, by rw [Upload.seen, huploadId]⟩

section

variable {rest : Except Fault Unit → Program Op Op.Val Fault Empty (Except Error Prepared × Unit)}

/-- The thread has written its file, and the process goes on. -/
theorem World.Sound.written (h : world.Sound platform)
    (hprocess : world.processes[index]? = some process)
    (hprogram : process.program = .call (.write path data) rest)
    (hphase : process.phase = .written) :
    ({ world with
      processes := world.processes.set index (process.proceed (.write path data) (.ok ())
        (rest (.ok ()))) } : World).Sound platform := by
  have hfits := h.fits process (List.mem_of_getElem? hprocess)
  refine h.set hprocess rfl (fun _ hupload => hupload) h.unique
    ((hfits.quiet hprogram rfl rfl rfl).mono fun _ hupload => hupload) h.files h.lingering
    (fun other hstands => hstands.mono rfl (fun _ hupload => hupload) (fun hbusy =>
      hbusy.set hprocess rfl (fun _ hentry => hentry) fun hwriting =>
        absurd (hphase.symm.trans hwriting.1) (by decide)) id) fun other hother => .inl ?_
  rcases hother with hold | ⟨hqueued, -⟩
  · rcases List.mem_append.mp hold with hold | hnew
    · exact .inl hold
    · rw [List.mem_singleton.mp hnew]
      exact .inr ⟨hphase, data, rest, hprogram⟩
  · cases hqueued

/-- The process goes on without its thread. -/
theorem World.Sound.leave (h : world.Sound platform)
    (hprocess : world.processes[index]? = some process)
    (hprogram : process.program = .call (.write path data) rest) (fault : Fault) :
    ({ world with
      lingering := (path, data) :: world.lingering
      processes := world.processes.set index (process.proceed (.write path data) (.error fault)
        (rest (.error fault))) } : World).Sound platform := by
  have hfits := h.fits process (List.mem_of_getElem? hprocess)
  refine h.set hprocess rfl (fun _ hupload => hupload) h.unique
    ((hfits.quiet hprogram rfl rfl rfl).mono fun _ hupload => hupload) h.files
    (fun entry hentry => ?_)
    (fun other hstands => hstands.mono rfl (fun _ hupload => hupload) (fun hbusy =>
      hbusy.set hprocess rfl (fun _ => List.mem_cons_of_mem _) fun hwriting => ?_) id)
    fun other hother => .inl ?_
  · rcases List.mem_cons.mp hentry with rfl | hold
    · exact (World.bytesOf_of_fits hfits hprogram).mono fun _ hupload => hupload
    · exact (h.lingering entry hold).mono fun _ hupload => hupload
  · rw [World.eq_of_writing hprogram hwriting.2]
    exact .inr ⟨data, List.mem_cons_self⟩
  · rcases hother with hold | ⟨hqueued, -⟩
    · exact .inl hold
    · cases hqueued

end

section

variable {op : Op} {answer : Except Fault op.Val}
  {rest : Except Fault op.Val → Program Op Op.Val Fault Empty (Except Error Prepared × Unit)}

/-- What a process awaits comes to something. -/
theorem World.Sound.perform {after : World} {outcome : Outcome} (h : world.Sound platform)
    (hprocess : world.processes[index]? = some process) (hprogram : process.program = .call op rest)
    (hanswer : op.answer outcome = some answer)
    (hperform : world.perform process.phase op outcome = some after) :
    ({ after with
      processes := world.processes.set index (process.proceed op answer (rest answer)) } :
      World).Sound platform := by
  have hfits := h.fits process (List.mem_of_getElem? hprocess)
  cases op with
  | download fileId =>
      obtain rfl := Option.some.inj hperform
      refine h.proceed hprocess hprogram (by simp) (hfits.quiet hprogram ?_ ?_ ?_) ?_ <;>
        (cases answer <;> rfl)
  | transcribe data filename =>
      obtain rfl := Option.some.inj hperform
      refine h.proceed hprocess hprogram (by simp) (hfits.quiet hprogram ?_ ?_ ?_) ?_ <;>
        (cases answer <;> rfl)
  | persist user chatId filename mime data =>
      cases outcome <;> cases hanswer
      · have hsound := h.insert hperform
        obtain rfl := World.insert_eq hperform
        refine hsound.proceed hprocess hprogram (by simp) (hfits.persist hprogram ?_ ?_) rfl
        · exact fun _ hrow => List.mem_append_left _ hrow
        · exact List.mem_append_right _ (List.mem_singleton_self _)
      · obtain rfl := Option.some.inj hperform
        exact h.proceed hprocess hprogram (by simp) (hfits.quiet hprogram rfl rfl rfl) rfl
  | getUpload uploadId user =>
      cases outcome <;> cases hanswer
      · next found =>
          simp only [World.perform] at hperform
          split at hperform
          · next hfound =>
              obtain rfl := Option.some.inj hperform
              cases found with
              | none =>
                  exact h.proceed hprocess hprogram (by simp)
                    (hfits.quiet hprogram rfl rfl rfl) rfl
              | some found =>
                  have hnamed := hfits.getUpload hprogram hfound.symm
                  exact h.proceed hprocess hprogram (by simp) hnamed rfl
          · cases hperform
      · obtain rfl := Option.some.inj hperform
        exact h.proceed hprocess hprogram (by simp) (hfits.quiet hprogram rfl rfl rfl) rfl
  | fetch uploadId =>
      cases outcome <;> cases hanswer
      · next data =>
          simp only [World.perform] at hperform
          split at hperform
          · next hany =>
              obtain rfl := Option.some.inj hperform
              obtain ⟨upload, hupload, hdata⟩ := (Option.any_eq_true _ _).mp hany
              obtain rfl : upload.data = data := of_decide_eq_true hdata
              exact h.proceed hprocess hprogram (by simp) (hfits.fetch hprogram h hupload) rfl
          · cases hperform
      · obtain rfl := Option.some.inj hperform
        exact h.proceed hprocess hprogram (by simp) (hfits.quiet hprogram rfl rfl rfl) rfl
  | write path data =>
      cases outcome <;> cases hanswer
      · simp only [World.perform] at hperform
        split at hperform
        · next hphase =>
            obtain rfl := Option.some.inj hperform
            exact h.written hprocess hprogram hphase
        · cases hperform
      · obtain rfl := Option.some.inj hperform
        exact h.leave hprocess hprogram _

end

theorem World.Sound.step {action : Action} (h : world.Sound platform)
    (hstep : world.step platform action = some next) : next.Sound platform := by
  cases action with
  | prepareTurn userId chatId limit message reply =>
      cases hstep
      exact h.begin (does_prepareTurn.bind fun _ => does_pure fun _ haccounts => haccounts)
  | prepareRunTurn userId chatId text uploadIds =>
      cases hstep
      exact h.begin (does_prepareRunTurn.bind fun _ => does_pure fun _ haccounts => haccounts)
  | thread index =>
      obtain ⟨process, hprocess, hstep⟩ := Option.bind_eq_some_iff.mp hstep
      split at hstep
      · next hprogram hphase =>
          cases hstep
          exact h.opens hprocess hprogram hphase
      · next hprogram _ =>
          cases hstep
          exact h.writes hprocess hprogram
      · cases hstep
  | advance index outcome =>
      obtain ⟨process, hprocess, hstep⟩ := Option.bind_eq_some_iff.mp hstep
      split at hstep
      · next hprogram =>
          obtain ⟨answer, hanswer, hstep⟩ := Option.bind_eq_some_iff.mp hstep
          obtain ⟨after, hperform, hstep⟩ := Option.bind_eq_some_iff.mp hstep
          cases hstep
          exact h.perform hprocess hprogram hanswer hperform
      · cases hstep
  | linger index count =>
      obtain ⟨⟨path, data⟩, hentry, hstep⟩ := Option.bind_eq_some_iff.mp hstep
      have hmem := List.mem_of_getElem? hentry
      have hdata : world.BytesOf platform path data := h.lingering _ hmem
      cases hstep
      cases count with
      | none => exact h.setFile (.inr ⟨data, hmem⟩) fun _ _ => h.files_truncate hdata
      | some count => exact h.setFile (.inr ⟨data, hmem⟩) fun _ _ => h.files_splice hdata count
  | leave index =>
      obtain ⟨⟨path, data⟩, hentry, hstep⟩ := Option.bind_eq_some_iff.mp hstep
      cases hstep
      exact h.ends hentry
  | store upload => exact h.insert hstep
  | delete uploadId =>
      cases hstep
      exact ⟨h.unique, fun process hprocess => (h.fits process hprocess).mono fun _ hrow => hrow,
        h.files, h.lingering, h.stands⟩

end

/-! ### The prepared turn -/

/-- The file is the upload's, and complete when nobody writes it or has left it unfinished. -/
def Upload.InFile (platform : Platform) (world : World) (chatId : Nat) (upload : Upload)
    (path : Text) : Prop :=
  upload.Names platform chatId path ∧ Inside chatId path ∧
    ∃ contents, world.files path = some contents ∧ contents <+: upload.data ∧
      (¬world.Busy path → path ∉ world.unfinished → contents = upload.data)

/-- What a turn of Telegram has of uploads. -/
structure PreparedTurn.Holds (platform : Platform) (world : World) (userId chatId : Nat)
    (written : List Text) (turn : PreparedTurn) : Prop where
  rows : ∀ id ∈ turn.uploadIds, ∃ upload ∈ world.uploads, upload.id = id ∧
    upload.userId = userId ∧ upload.chatId = some chatId
  shows : ∀ url ∈ turn.attachments, ∃ upload ∈ world.uploads, upload.id ∈ turn.uploadIds ∧
    url = ⟨upload.mime, upload.data⟩
  files : ∀ path ∈ written, ∃ upload ∈ world.uploads, upload.id ∈ turn.uploadIds ∧
    upload.InFile platform world chatId path
  /-- The quoted text mentions its own files. -/
  mentions : ∃ paths quotedPaths, written = paths ++ quotedPaths ∧ Mentions paths turn.text ∧
    turn.quotedText.elim (quotedPaths = []) (Mentions quotedPaths)
  prompt : ∀ quoted, turn.quotedText = some quoted →
    readPrompt turn.prompt = some ([("text".toList, quoted)], turn.text)

/-- What a turn of the web has of the uploads of its request. -/
structure PreparedRunTurn.Holds (platform : Platform) (world : World) (userId chatId : Nat)
    (requested : List Nat) (written : List Text) (turn : PreparedRunTurn) : Prop where
  rows : ∀ id ∈ requested, ∃ upload ∈ world.uploads, upload.id = id ∧ upload.userId = userId
  sorted : (turn.uploads.imageIds ++ (turn.uploads.audioIds ++ turn.uploads.fileIds)).Perm requested
  images : List.Forall₂ (fun id url => ∃ upload ∈ world.uploads, upload.id = id ∧
    isImage upload.mime = true ∧ url = ⟨upload.mime, upload.data⟩)
      turn.uploads.imageIds turn.uploads.imageUrls
  audio : ∀ id ∈ turn.uploads.audioIds, ∃ upload ∈ world.uploads, upload.id = id ∧
    isAudio upload.mime = true
  files : List.Forall₂ (fun id path => ∃ upload ∈ world.uploads, upload.id = id ∧
    isAudio upload.mime = false ∧ isImage upload.mime = false ∧
      upload.InFile platform world chatId path) turn.uploads.fileIds turn.uploads.filePaths
  written : written = turn.uploads.filePaths
  mentions : Mentions turn.uploads.filePaths turn.text

def Prepared.Holds (platform : Platform) (world : World) (userId chatId : Nat)
    (written : List Text) : Prepared → Prop
  | .telegram turn => turn.Holds platform world userId chatId written
  | .web requested turn => turn.Holds platform world userId chatId requested written

section

variable {platform : Platform} {world : World} {process : Process}

theorem reach_sound (hreach : Reach (World.step platform) (fun _ _ => True) {} world) :
    world.Sound platform :=
  hreach.invariant (World.Sound platform)
    ⟨by simp, by simp, (fun _ _ hcontents => by cases hcontents), by simp, by simp⟩
    fun _ _ _ hsound _ hstep => hsound.step hstep

theorem World.Sound.inFile {upload : Upload} {path : Text} (h : world.Sound platform)
    (hprocess : process ∈ world.processes) (hwritten : path ∈ process.history.written)
    (hupload : upload ∈ world.uploads) (hnames : upload.Names platform process.chatId path) :
    upload.InFile platform world process.chatId path := by
  obtain ⟨hsome, hstands⟩ := h.stands process hprocess path (.inl hwritten)
  obtain ⟨contents, hcontents⟩ := Option.isSome_iff_exists.mp hsome
  have hof : world.BytesOf platform path upload.data := ⟨upload, hupload, _, hnames, rfl⟩
  refine ⟨hnames, hnames ▸ inside_workspacePath, contents, hcontents, ?_, fun hbusy hleft => ?_⟩
  · obtain ⟨data, hdata, hbegins⟩ := h.files path contents hcontents
    rw [h.bytesOf_unique hof hdata]
    exact hbegins
  · obtain ⟨data, hdata, hall⟩ := (hstands.resolve_left hbusy).resolve_left hleft
    rw [h.bytesOf_unique hof hdata]
    exact Option.some.inj (hcontents.symm.trans hall)

theorem PreparedTurn.Accounts.holds {turn : PreparedTurn} (hsound : world.Sound platform)
    (hprocess : process ∈ world.processes)
    (h : turn.Accounts platform process.chatId process.history) :
    turn.Holds platform world process.userId process.chatId process.history.written where
  rows id hid := (hsound.fits process hprocess).persisted id (h.persisted.mem_iff.mpr hid)
  shows url hurl := by
    obtain ⟨seen, hseen, hid, rfl⟩ := h.shows url hurl
    obtain ⟨upload, hupload, rfl⟩ := (hsound.fits process hprocess).known seen hseen
    exact ⟨upload, hupload, hid, rfl⟩
  files path hpath := by
    obtain ⟨seen, hseen, hid, hnames⟩ := h.files path hpath
    obtain ⟨upload, hupload, rfl⟩ := (hsound.fits process hprocess).known seen hseen
    exact ⟨upload, hupload, hid, hsound.inFile hprocess hpath hupload hnames⟩
  mentions := h.mentions
  prompt _ hquoted := readPrompt_prompt hquoted

theorem PreparedRunTurn.Accounts.holds {turn : PreparedRunTurn} {requested : List Nat}
    (hsound : world.Sound platform) (hprocess : process ∈ world.processes)
    (h : turn.Accounts platform process.chatId requested process.history) :
    turn.Holds platform world process.userId process.chatId requested process.history.written := by
  have hfits := hsound.fits process hprocess
  refine ⟨fun id hid => ?_, h.1.sorted, h.1.images.imp fun id url himage => ?_, fun id hid => ?_, ?_,
    h.1.written, h.2⟩
  · obtain ⟨found, hfound⟩ := h.1.named id hid
    obtain ⟨upload, hupload, hmine, hsame⟩ := hfits.names _ hfound
    exact ⟨upload, hupload, congrArg Prod.fst hsame, hmine⟩
  · obtain ⟨seen, hseen, hid, himage, rfl⟩ := himage
    obtain ⟨upload, hupload, rfl⟩ := hfits.known seen hseen
    exact ⟨upload, hupload, hid, himage, rfl⟩
  · obtain ⟨name, mime, hentry, haudio⟩ := h.1.audio id hid
    obtain ⟨upload, hupload, -, hsame⟩ := hfits.names _ hentry
    obtain ⟨rfl, -, rfl⟩ : upload.id = id ∧ upload.filename = name ∧ upload.mime = mime := by
      simpa using hsame
    exact ⟨upload, hupload, rfl, haudio⟩
  · have hwritten : ∀ path ∈ turn.uploads.filePaths, path ∈ process.history.written := by
      rw [h.1.written]
      exact fun _ hpath => hpath
    refine (List.forall₂_iff_get.mpr ?_)
    obtain ⟨hlength, hfiles⟩ := List.forall₂_iff_get.mp h.1.files
    refine ⟨hlength, fun place hid hpath => ?_⟩
    obtain ⟨seen, hseen, hsame, haudio, himage, hnames⟩ := hfiles place hid hpath
    obtain ⟨upload, hupload, rfl⟩ := hfits.known seen hseen
    exact ⟨upload, hupload, hsame, haudio, himage,
      hsound.inFile hprocess (hwritten _ (List.get_mem _ _)) hupload hnames⟩

/-- **What the text mentions is what was uploaded.** Whatever preparations run side by side, and
whatever their threads still do, a turn that is prepared has only uploads of its own user, the
pictures are theirs, and the text mentions the files that were written, which hold them. -/
theorem mentions_are_uploads {prepared : Prepared}
    (hreach : Reach (World.step platform) (fun _ _ => True) {} world)
    (hprocess : process ∈ world.processes) (hprepared : process.program = .ret (.ok prepared, ())) :
    prepared.Holds platform world process.userId process.chatId process.history.written := by
  have hsound := reach_sound hreach
  have hkeeps := (hsound.fits process hprocess).keeps
  rw [hprepared] at hkeeps
  have haccounts := hkeeps prepared rfl
  cases prepared with
  | telegram turn => exact PreparedTurn.Accounts.holds hsound hprocess haccounts
  | web requested turn => exact PreparedRunTurn.Accounts.holds hsound hprocess haccounts

end

/-! ### A file that is attached again -/

def plainPlatform : Platform where
  isAlnum c := c.isAlphanum
  guessType _ := none
  guessExtension _ := none
  slash := rfl

/-- A report that the user has uploaded in the browser. -/
def report : Upload :=
  ⟨7, 1, none, "a/b c.pdf".toList, "application/pdf".toList, [1, 2]⟩

/-- A request of the web with the report and a text, up to the thread that writes it. -/
def requested (index : Nat) : List Action :=
  [.prepareRunTurn 1 5 "Read".toList [7],
    .advance index (.found (some (report.filename, report.mime))), .advance index (.bytes [1, 2])]

/-- The report is attached to two requests, and the thread of the second has opened the file when the
turn of the first is prepared. -/
def attachedAgain : List Action :=
  .store report :: requested 0 ++ [.thread 0, .thread 0] ++ requested 1 ++
    [.thread 1, .advance 0 .done]

theorem mentions_are_uploads_attached_again : ∃ world process turn,
    run (World.step plainPlatform) {} attachedAgain = some world ∧
      world.processes[0]? = some process ∧ process.program = .ret (.ok (.web [7] turn), ()) ∧
        turn.uploads.fileIds = [7] ∧ turn.Holds plainPlatform world process.userId process.chatId [7]
          process.history.written := by
  obtain ⟨world, hrun⟩ : ∃ world, run (World.step plainPlatform) {} attachedAgain = some world :=
    ⟨_, rfl⟩
  obtain ⟨process, turn, hprocess, hprepared, hids⟩ : ∃ process turn,
      world.processes[0]? = some process ∧ process.program = .ret (.ok (.web [7] turn), ()) ∧
        turn.uploads.fileIds = [7] := by
    cases hrun
    exact ⟨_, _, rfl, rfl, rfl⟩
  exact ⟨world, process, turn, hrun, hprocess, hprepared, hids,
    mentions_are_uploads (reach_of_run_all hrun) (List.mem_of_getElem? hprocess) hprepared⟩

/-- So the turn mentions a file that is empty by then. -/
example : ((run (World.step plainPlatform) {} attachedAgain).bind fun world =>
    world.files "uploads/chat-5/7-b_c.pdf".toList) = some [] := by
  decide +kernel

/-- The second request is cancelled, and its thread fails: the file stays empty. -/
example : ((run (World.step plainPlatform) {} (attachedAgain ++
    [.advance 1 (.fault .other), .leave 0])).map fun world =>
      (world.files "uploads/chat-5/7-b_c.pdf".toList, world.unfinished, world.lingering)) =
    some (some [], ["uploads/chat-5/7-b_c.pdf".toList], []) := by
  decide +kernel

end CodexServer.Preparation
