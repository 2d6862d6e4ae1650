import CodexServer.FinalPersist
import CodexServer.Proof.Uploads

/-!
# A bad attachment and the answer

The exceptions of one attachment are caught around `_persist_local_file`, so they leave the others
and the answer alone. What `_unique_local_paths` raises is not caught, and a failed insert leaves a
session in which nothing works until it is rolled back, which nobody does.
-/

namespace CodexServer.FinalPersist

/-! ### Running code -/

section

variable {A B : Type} {code : Code A} {next : A → Code B} {session after : Session}

theorem run_of_ok {answer : A} (h : code.run session = (.ok answer, after)) :
    (code >>= next).run session = (next answer).run after := by
  rw [ExceptT.run_bind]
  show StateT.bind code.run _ session = _
  unfold StateT.bind
  rw [h]
  rfl

theorem run_of_error {error : Error} (h : code.run session = (.error error, after)) :
    (code >>= next).run session = (.error error, after) := by
  rw [ExceptT.run_bind]
  show StateT.bind code.run _ session = _
  unfold StateT.bind
  rw [h]
  rfl

theorem run_execute {statement : Database → A × Database} (husable : session.usable = true) :
    (execute statement).run session =
      (.ok (statement session.view).1, { session with view := (statement session.view).2 }) := by
  obtain ⟨committed, view, usable⟩ := session
  cases husable
  rfl

theorem run_execute_lost {statement : Database → A × Database} (hlost : session.usable = false) :
    (execute statement).run session = (.error pendingRollback, session) := by
  obtain ⟨committed, view, usable⟩ := session
  cases hlost
  rfl

end

/-! ### One attachment -/

section

variable {platform : Platform} {request : Request} {session : Session} {path : PosixPath}

/-- The upload of a file fails. -/
def Platform.fails (platform : Platform) (path : PosixPath) : Bool :=
  !(platform.stat path).isOk || (platform.storageFault path).isSome ||
    (platform.insertFault path).isSome

/-- It fails at the insert into `uploads`. -/
def Platform.failsInsert (platform : Platform) (path : PosixPath) : Bool :=
  (platform.stat path).isOk && (platform.storageFault path).isNone &&
    (platform.insertFault path).isSome

def rowOf (platform : Platform) (request : Request) (path : PosixPath) : Uploads.Upload :=
  uploadOf platform request path ((platform.stat path).toOption.getD 0)

/-- The rows, with the ids they get. -/
def numbered (uploads : List Uploads.Upload) (nextId : Nat) : List (Nat × Uploads.Upload) :=
  (uploads.zipIdx nextId).map Prod.swap

def insertUploads (uploads : List Uploads.Upload) (database : Database) : Database :=
  { database with
    uploads := database.uploads ++ numbered uploads database.nextUploadId
    nextUploadId := database.nextUploadId + uploads.length }

@[simp] theorem insertUploads_nil (database : Database) : insertUploads [] database = database := by
  simp [insertUploads, numbered]

theorem insertUploads_cons (upload : Uploads.Upload) (uploads : List Uploads.Upload)
    (database : Database) :
    insertUploads uploads (insertUploads [upload] database) =
      insertUploads (upload :: uploads) database := by
  simp [insertUploads, numbered, List.zipIdx_cons, Nat.add_assoc, Nat.add_comm 1]

theorem persistLocalFile_of_fails (request : Request) (session : Session)
    (hfails : platform.fails path = true)
    (hinsert : platform.failsInsert path = false) :
    ∃ error, error.isCaught = true ∧
      (persistLocalFile platform request path).run session = (.error error, session) := by
  unfold persistLocalFile
  unfold Platform.fails at hfails
  unfold Platform.failsInsert at hinsert
  cases hstat : platform.stat path with
  | error text => exact ⟨.osError text, rfl, rfl⟩
  | ok size =>
      cases hstorage : platform.storageFault path with
      | none =>
          simp only [hstat, hstorage, Except.isOk, Except.toBool, Bool.not_true, Bool.false_or,
            Option.isSome_none, Option.isNone_none, Bool.and_self, Bool.true_and] at hfails hinsert
          cases hfails.symm.trans hinsert
      | some fault => exact ⟨fault.error, by cases fault <;> rfl, rfl⟩

theorem persistLocalFile_of_ok (request : Request) (hok : platform.fails path = false)
    (husable : session.usable = true) :
    (persistLocalFile platform request path).run session = (.ok session.view.nextUploadId,
      { session with view := insertUploads [rowOf platform request path] session.view }) := by
  unfold persistLocalFile rowOf
  unfold Platform.fails at hok
  cases hstat : platform.stat path with
  | error text => simp [hstat, Except.isOk, Except.toBool] at hok
  | ok size =>
      simp only [hstat, Except.isOk, Except.toBool, Bool.not_true, Bool.false_or,
        Bool.or_eq_false_iff, Option.isSome_eq_false_iff, Option.isNone_iff_eq_none] at hok
      obtain ⟨hstorage, hinsert⟩ := hok
      simp only [hstorage, hinsert]
      obtain ⟨committed, view, usable⟩ := session
      cases husable
      rfl

/-- After a failed insert, and all along from then on. -/
theorem persistLocalFile_lost (request : Request)
    (hlost : session.usable = false ∨ platform.failsInsert path = true) :
    ∃ error after, error.isCaught = true ∧
      (persistLocalFile platform request path).run session = (.error error, after) ∧
      after.usable = false ∧ after.committed = session.committed := by
  obtain ⟨committed, view, usable⟩ := session
  unfold persistLocalFile
  unfold Platform.failsInsert at hlost
  cases hstat : platform.stat path with
  | error text =>
      have hunusable : usable = false := by
        simpa [hstat, Except.isOk, Except.toBool] using hlost
      exact ⟨.osError text, _, rfl, rfl, hunusable, rfl⟩
  | ok size =>
      cases hstorage : platform.storageFault path with
      | some fault =>
          have hunusable : usable = false := by
            simpa [hstorage] using hlost
          exact ⟨fault.error, _, by cases fault <;> rfl, rfl, hunusable, rfl⟩
      | none =>
          cases usable with
          | false =>
              refine ⟨pendingRollback, _, rfl, ?_, rfl, rfl⟩
              cases platform.insertFault path <;> rfl
          | true =>
              cases hinsert : platform.insertFault path with
              | none => simp [hinsert] at hlost
              | some text => exact ⟨.sqlAlchemyError text, _, rfl, rfl, rfl, rfl⟩

/-! ### All of them -/

variable {after : Session}

theorem attempt_of_ok {code : Code Nat} {id : Nat} (h : code.run session = (.ok id, after)) :
    (attempt code).run session = (.ok (some id), after) := by
  have hmap : (some <$> code).run session = (.ok (some id), after) := by
    rw [← bind_pure_comp, run_of_ok h]
    rfl
  unfold attempt
  rw [ExceptT.run_tryCatch]
  show StateT.bind (some <$> code).run _ session = _
  unfold StateT.bind
  rw [hmap]
  rfl

theorem attempt_of_caught {code : Code Nat} {error : Error} (hcaught : error.isCaught = true)
    (h : code.run session = (.error error, after)) :
    (attempt code).run session = (.ok none, after) := by
  have hmap : (some <$> code).run session = (.error error, after) := by
    rw [← bind_pure_comp, run_of_error h]
  unfold attempt
  rw [ExceptT.run_tryCatch]
  show StateT.bind (some <$> code).run _ session = _
  unfold StateT.bind
  rw [hmap]
  show (if error.isCaught then return none else throw error : Code (Option Nat)).run after = _
  rw [if_pos hcaught]
  rfl

/-- One turn of the loop. -/
theorem persistEach_cons {rest : List PosixPath} {uploadId : Option Nat} {uploadIds : List Nat}
    {last : Session}
    (hfirst : (attempt (persistLocalFile platform request path)).run session =
      (.ok uploadId, after))
    (hrest : (persistEach platform request rest).run after = (.ok uploadIds, last)) :
    (persistEach platform request (path :: rest)).run session =
      (.ok (uploadId.toList ++ uploadIds), last) := by
  rw [persistEach, run_of_ok hfirst, run_of_ok hrest]
  rfl

/-- **The files one after the other.** Those that fail before the insert are left out. -/
theorem persistEach_kept (paths : List PosixPath) (husable : session.usable = true)
    (hinserts : ∀ path ∈ paths, platform.failsInsert path = false) :
    (persistEach platform request paths).run session =
      (.ok (List.range' session.view.nextUploadId
          (paths.filter fun path => !platform.fails path).length),
        { session with
          view := insertUploads
            ((paths.filter fun path => !platform.fails path).map (rowOf platform request))
            session.view }) := by
  induction paths generalizing session with
  | nil => simp [persistEach]; rfl
  | cons path rest ih =>
      have hrest : ∀ path ∈ rest, platform.failsInsert path = false :=
        fun path hmem => hinserts path (List.mem_cons_of_mem _ hmem)
      cases hfails : platform.fails path with
      | true =>
          obtain ⟨error, hcaught, hrun⟩ := persistLocalFile_of_fails request session hfails
            (hinserts path List.mem_cons_self)
          rw [persistEach_cons (attempt_of_caught hcaught hrun) (ih husable hrest)]
          simp [hfails]
      | false =>
          have hrun := persistLocalFile_of_ok request hfails husable
          rw [persistEach_cons (attempt_of_ok hrun) (ih husable hrest)]
          have hkept : (path :: rest).filter (fun path => !platform.fails path) =
              path :: rest.filter fun path => !platform.fails path := by
            simp [hfails]
          have hviews := insertUploads_cons (rowOf platform request path)
            ((rest.filter fun path => !platform.fails path).map (rowOf platform request))
            session.view
          rw [hkept, List.map_cons, ← hviews, List.length_cons, List.range'_succ]
          rfl

/-- **After a failed insert** nothing is inserted any more, and nothing of it is left. -/
theorem persistEach_lost (request : Request) (session : Session) (paths : List PosixPath)
    (hlost : session.usable = false ∨ ∃ path ∈ paths, platform.failsInsert path = true) :
    ∃ uploadIds after, (persistEach platform request paths).run session = (.ok uploadIds, after) ∧
      after.usable = false ∧ after.committed = session.committed := by
  induction paths generalizing session with
  | nil =>
      obtain hunusable | ⟨path, hmem, -⟩ := hlost
      · exact ⟨[], session, rfl, hunusable, rfl⟩
      · cases hmem
  | cons path rest ih =>
      by_cases hfirst : session.usable = false ∨ platform.failsInsert path = true
      · obtain ⟨error, middle, hcaught, hrun, hunusable, hsame⟩ :=
          persistLocalFile_lost request hfirst
        obtain ⟨uploadIds, after, hrest, hafter, hcommitted⟩ := ih middle (.inl hunusable)
        exact ⟨_, after, persistEach_cons (attempt_of_caught hcaught hrun) hrest, hafter,
          hcommitted.trans hsame⟩
      · obtain ⟨husable, hinsert⟩ := not_or.mp hfirst
        have husable : session.usable = true := by simpa using husable
        have hinsert : platform.failsInsert path = false := by
          simpa using hinsert
        have hlater : ∃ path ∈ rest, platform.failsInsert path = true := by
          obtain hunusable | ⟨failing, hmem, hfailing⟩ := hlost
          · cases husable.symm.trans hunusable
          · obtain rfl | hmem := List.mem_cons.mp hmem
            · cases hinsert.symm.trans hfailing
            · exact ⟨failing, hmem, hfailing⟩
        cases hfails : platform.fails path with
        | true =>
            obtain ⟨error, hcaught, hrun⟩ :=
              persistLocalFile_of_fails request session hfails hinsert
            obtain ⟨uploadIds, after, hrest, hafter⟩ := ih session (.inr hlater)
            exact ⟨_, after, persistEach_cons (attempt_of_caught hcaught hrun) hrest, hafter⟩
        | false =>
            have hrun := persistLocalFile_of_ok request hfails husable
            obtain ⟨uploadIds, after, hrest, hafter⟩ := ih _ (.inr hlater)
            exact ⟨_, after, persistEach_cons (attempt_of_ok hrun) hrest, hafter⟩

/-! ### The local files -/

/-- The file that an attachment names, if its path can be resolved. -/
def localPath (platform : Platform) (attachment : Attachment) : Option PosixPath :=
  (resolveTrustedLocalPath platform attachment.source).toOption.join

/-- Resolving the path of an attachment raises. -/
def raises (platform : Platform) (attachment : Attachment) : Bool :=
  !(resolveTrustedLocalPath platform attachment.source).isOk

variable {attachments : List Attachment}

theorem uniqueLocalPaths_none {attachment : Attachment} {rest : List Attachment}
    (h : resolveTrustedLocalPath platform attachment.source = .ok none) (out : List PosixPath) :
    uniqueLocalPaths platform (attachment :: rest) out = uniqueLocalPaths platform rest out := by
  rw [uniqueLocalPaths, h]
  rfl

theorem uniqueLocalPaths_some {attachment : Attachment} {rest : List Attachment}
    (h : resolveTrustedLocalPath platform attachment.source = .ok (some path))
    (out : List PosixPath) :
    uniqueLocalPaths platform (attachment :: rest) out =
      uniqueLocalPaths platform rest (if path ∈ out then out else out ++ [path]) := by
  rw [uniqueLocalPaths, h]
  show (if path ∈ out then _ else _) = _
  split <;> rfl

theorem uniqueLocalPaths_of_raises (hraises : ∃ attachment ∈ attachments,
    raises platform attachment = true) (out : List PosixPath) :
    ∃ error, uniqueLocalPaths platform attachments out = .error error := by
  induction attachments generalizing out with
  | nil =>
      obtain ⟨attachment, hmem, -⟩ := hraises
      cases hmem
  | cons attachment rest ih =>
      cases hresolve : resolveTrustedLocalPath platform attachment.source with
      | error error =>
          rw [uniqueLocalPaths, hresolve]
          exact ⟨error, rfl⟩
      | ok path =>
          have hlater : ∃ attachment ∈ rest, raises platform attachment = true := by
            obtain ⟨raising, hmem, hraising⟩ := hraises
            obtain rfl | hmem := List.mem_cons.mp hmem
            · simp [raises, hresolve, Except.isOk, Except.toBool] at hraising
            · exact ⟨raising, hmem, hraising⟩
          cases path with
          | none =>
              rw [uniqueLocalPaths_none hresolve]
              exact ih hlater out
          | some path =>
              rw [uniqueLocalPaths_some hresolve]
              exact ih hlater _

/-- The loop goes through the files that are not in its list, once each. -/
theorem uniqueLocalPaths_ok (hresolves : ∀ attachment ∈ attachments,
    raises platform attachment = false) (out : List PosixPath) :
    uniqueLocalPaths platform attachments out = .ok (out ++
      ((attachments.filterMap (localPath platform)).filter (· ∉ out)).eraseDups) := by
  induction attachments generalizing out with
  | nil => simp [uniqueLocalPaths]
  | cons attachment rest ih =>
      have hrest : ∀ attachment ∈ rest, raises platform attachment = false :=
        fun attachment hmem => hresolves attachment (List.mem_cons_of_mem _ hmem)
      have hfirst := hresolves attachment List.mem_cons_self
      cases hresolve : resolveTrustedLocalPath platform attachment.source with
      | error error => simp [raises, hresolve, Except.isOk, Except.toBool] at hfirst
      | ok path =>
          have hlocal : localPath platform attachment = path := by
            simp [localPath, hresolve, Except.toOption]
          cases path with
          | none =>
              rw [List.filterMap_cons_none hlocal, uniqueLocalPaths_none hresolve]
              exact ih hrest out
          | some path =>
              rw [List.filterMap_cons_some hlocal, uniqueLocalPaths_some hresolve, ih hrest]
              by_cases hseen : path ∈ out
              · rw [if_pos hseen, List.filter_cons_of_neg (by simpa using hseen)]
              · have hboth : (rest.filterMap (localPath platform)).filter (· ∉ out ++ [path]) =
                    ((rest.filterMap (localPath platform)).filter (· ∉ out)).filter
                      fun other => !other == path := by
                  rw [List.filter_filter]
                  refine List.filter_congr fun other _ => ?_
                  by_cases hother : other = path <;> simp [hother]
                rw [if_neg hseen, List.filter_cons_of_pos (by simpa using hseen),
                  List.eraseDups_cons, hboth, List.append_assoc, List.singleton_append]

theorem uniqueLocalPaths_all (hresolves : ∀ attachment ∈ attachments,
    raises platform attachment = false) :
    uniqueLocalPaths platform attachments [] =
      .ok (attachments.filterMap (localPath platform)).eraseDups := by
  have hpaths := uniqueLocalPaths_ok hresolves []
  simpa only [List.not_mem_nil, not_false_eq_true, decide_true, List.filter_true,
    List.nil_append] using hpaths

/-! ### The answer -/

/-- The files that do not fail, once each, in the order of the attachments. -/
def spared (platform : Platform) (attachments : List Attachment) : List PosixPath :=
  (attachments.filterMap (localPath platform)).eraseDups.filter fun path => !platform.fails path

/-- Their rows. -/
def newUploads (platform : Platform) (request : Request) (start : Database) :
    List (Nat × Uploads.Upload) :=
  numbered ((spared platform request.attachments).map (rowOf platform request)) start.nextUploadId

/-- The answer is in the database, with its uploads and all that goes with it. -/
structure Delivered (platform : Platform) (request : Request) (start saved : Database) : Prop where
  uploads : saved.uploads = start.uploads ++ newUploads platform request start
  answer : ∃ message : Message, message.id = start.nextMessageId ∧
    message.chatId = request.chatId ∧ message.role = .assistant ∧ message.text = request.text ∧
    message.metadata.elim [] Meta.uploadIds = (newUploads platform request start).map Prod.fst ∧
    saved.messages =
      (start.messages.filter fun old => old.id ∉ request.partialMsgIds) ++ [message]
  attached : saved.turns = start.turns.map fun turn =>
    if request.turnId = some turn.id then
      { turn with assistantMessageId := some start.nextMessageId }
    else turn
  journal : saved.events = start.events ++
    [completed request (newUploads platform request start).length]

/-- The attachment raises nothing, unless it is caught, and does not fail in the database. -/
def harmless (platform : Platform) (attachment : Attachment) : Bool :=
  !raises platform attachment && (localPath platform attachment).all fun path =>
    !platform.failsInsert path

def answerOf (request : Request) (uploadIds : List Nat) (id : Nat) : Message :=
  ⟨id, request.chatId, .assistant, request.text, metaOf request uploadIds⟩

/-- What the rest of the transaction does once the uploads are in. -/
def answered (request : Request) (uploadIds : List Nat) (database : Database) : Database :=
  { database with
    messages := (database.messages ++ [answerOf request uploadIds database.nextMessageId]).filter
      fun message => message.id ∉ request.partialMsgIds
    nextMessageId := database.nextMessageId + 1
    turns := database.turns.map fun turn =>
      if request.turnId = some turn.id then
        { turn with assistantMessageId := some database.nextMessageId }
      else turn
    events := database.events ++ [completed request uploadIds.length] }

theorem run_deleteMany {session : Session} (messageIds : List Nat)
    (husable : session.usable = true) :
    (deleteMany messageIds).run session = (.ok (), { session with
      view := { session.view with
        messages := session.view.messages.filter fun message => message.id ∉ messageIds } }) := by
  unfold deleteMany
  split
  · rename_i hnone
    simp only [hnone, List.not_mem_nil, not_false_eq_true, decide_true, List.filter_true]
    rfl
  · exact run_execute husable

theorem saved_of_persisted {start : Database} {uploadIds : List Nat} {session : Session}
    (hrun : (persistAttachments platform request).run (.opened start) = (.ok uploadIds, session))
    (husable : session.usable = true) :
    saved platform request start = answered request uploadIds session.view := by
  obtain ⟨committed, view, usable⟩ := session
  obtain rfl : usable = true := husable
  have happend : (appendMessage request (metaOf request uploadIds)).run ⟨committed, view, true⟩ =
      (.ok (answerOf request uploadIds view.nextMessageId), ⟨committed, { view with
        messages := view.messages ++ [answerOf request uploadIds view.nextMessageId]
        nextMessageId := view.nextMessageId + 1 }, true⟩) :=
    (run_of_ok (run_execute rfl)).trans (run_execute rfl)
  unfold saved finalizeTurnPersist
  rw [run_of_ok hrun, run_of_ok happend]
  unfold answered
  cases hturn : request.turnId with
  | none =>
      simp only [reduceCtorEq, if_false, List.map_id']
      rw [run_of_ok (run_deleteMany _ rfl)]
      rfl
  | some turnId =>
      simp only [Option.some.injEq, eq_comm (a := turnId)]
      rw [attachAssistantMessage, run_of_ok (run_execute rfl), run_of_ok (run_deleteMany _ rfl)]
      rfl

theorem saved_of_lost {start : Database} {uploadIds : List Nat} {session : Session}
    (hrun : (persistAttachments platform request).run (.opened start) = (.ok uploadIds, session))
    (hlost : session.usable = false) (hcommitted : session.committed = start) :
    saved platform request start = start := by
  have happend : (appendMessage request (metaOf request uploadIds)).run session =
      (.error pendingRollback, session) := run_of_error (run_execute_lost hlost)
  unfold saved finalizeTurnPersist
  rw [run_of_ok hrun, run_of_error happend]
  exact hcommitted

theorem saved_of_raised {start : Database} {error : Error}
    (hraised : uniqueLocalPaths platform request.attachments [] = .error error) :
    saved platform request start = start := by
  have hrun : (persistAttachments platform request).run (.opened start) =
      (.error error, .opened start) := by
    unfold persistAttachments
    rw [hraised]
    rfl
  unfold saved finalizeTurnPersist
  rw [run_of_error hrun]
  rfl

theorem persistAttachments_kept (start : Database)
    (hharmless : ∀ attachment ∈ request.attachments, harmless platform attachment = true) :
    (persistAttachments platform request).run (.opened start) =
      (.ok ((newUploads platform request start).map Prod.fst), { Session.opened start with
        view := insertUploads
          ((spared platform request.attachments).map (rowOf platform request)) start }) := by
  have hresolves : ∀ attachment ∈ request.attachments, raises platform attachment = false := by
    intro attachment hmem
    have h := hharmless attachment hmem
    simp only [harmless, Bool.and_eq_true, Bool.not_eq_true'] at h
    exact h.1
  have hpaths := uniqueLocalPaths_all hresolves
  have hinserts : ∀ path ∈ (request.attachments.filterMap (localPath platform)).eraseDups,
      platform.failsInsert path = false := by
    intro path hmem
    obtain ⟨attachment, hattached, hlocal⟩ := List.mem_filterMap.mp (List.mem_eraseDups.mp hmem)
    have h := hharmless attachment hattached
    simpa [harmless, hlocal] using (Bool.and_eq_true_iff.mp h).2
  have hids : (newUploads platform request start).map Prod.fst = List.range' start.nextUploadId
      (spared platform request.attachments).length := by
    simp [newUploads, numbered, List.map_map, Function.comp_def]
  unfold persistAttachments
  rw [hpaths, hids]
  exact persistEach_kept _ rfl hinserts

theorem delivered_of_harmless {start : Database}
    (hids : ∀ id ∈ request.partialMsgIds, id < start.nextMessageId)
    (hharmless : ∀ attachment ∈ request.attachments, harmless platform attachment = true) :
    Delivered platform request start (saved platform request start) := by
  have hsaved := saved_of_persisted (persistAttachments_kept start hharmless) rfl
  have hlength : ((newUploads platform request start).map Prod.fst).length =
      (newUploads platform request start).length := List.length_map _
  have hfresh : start.nextMessageId ∉ request.partialMsgIds := fun hmem =>
    Nat.lt_irrefl _ (hids _ hmem)
  rw [hsaved]
  refine ⟨rfl, ⟨answerOf request ((newUploads platform request start).map Prod.fst)
    start.nextMessageId, rfl, rfl, rfl, rfl, ?_, ?_⟩, rfl, ?_⟩
  · unfold answerOf metaOf
    simp only
    split
    · rename_i hempty
      exact hempty.2.1.symm
    · rfl
  · unfold answered
    simp only [List.filter_append]
    congr 1
    simp [answerOf, insertUploads, hfresh]
  · simp only [answered, hlength]
    rfl

/-- **One bad attachment does not lose the answer**, just if it neither keeps a path from being
resolved nor fails in the database. -/
theorem answer_survives_attachments (platform : Platform) (request : Request) (start : Database)
    (hids : ∀ id ∈ request.partialMsgIds, id < start.nextMessageId) :
    Delivered platform request start (saved platform request start) ↔
      ∀ attachment ∈ request.attachments, harmless platform attachment = true := by
  refine ⟨fun hdelivered => ?_, delivered_of_harmless hids⟩
  by_contra hharmful
  have hlost : saved platform request start = start := by
    by_cases hraises : ∃ attachment ∈ request.attachments, raises platform attachment = true
    · obtain ⟨error, hraised⟩ := uniqueLocalPaths_of_raises hraises []
      exact saved_of_raised hraised
    · have hresolves : ∀ attachment ∈ request.attachments, raises platform attachment = false :=
        fun attachment hmem => Bool.eq_false_iff.mpr fun hraising =>
          hraises ⟨attachment, hmem, hraising⟩
      obtain ⟨attachment, hattached, hfails⟩ : ∃ attachment ∈ request.attachments,
          harmless platform attachment = false := by
        simpa using hharmful
      obtain ⟨path, hlocal, hinsert⟩ : ∃ path, localPath platform attachment = some path ∧
          platform.failsInsert path = true := by
        cases hlocal : localPath platform attachment with
        | none => simp [harmless, hresolves attachment hattached, hlocal] at hfails
        | some path =>
            have hinsert : platform.failsInsert path = true := by
              simpa [harmless, hresolves attachment hattached, hlocal] using hfails
            exact ⟨path, rfl, hinsert⟩
      have hpath : path ∈ (request.attachments.filterMap (localPath platform)).eraseDups :=
        List.mem_eraseDups.mpr (List.mem_filterMap.mpr ⟨attachment, hattached, hlocal⟩)
      obtain ⟨uploadIds, session, hrun, hlost, hcommitted⟩ :=
        persistEach_lost request (.opened start) _ (.inr ⟨path, hpath, hinsert⟩)
      have hpersisted : (persistAttachments platform request).run (.opened start) =
          (.ok uploadIds, session) := by
        unfold persistAttachments
        rw [uniqueLocalPaths_all hresolves]
        exact hrun
      exact saved_of_lost hpersisted hlost hcommitted
  have hjournal := hdelivered.journal
  rw [hlost] at hjournal
  exact absurd hjournal (by simp)

end

/-- A workspace with a plot and a sheet that the storage does not take. -/
def somePlatform : Platform where
  workspaceRoot := ⟨"/".toList, ["work".toList]⟩
  generatedImages := ⟨"/".toList, ["home".toList, "codex".toList, ".codex".toList,
    "generated_images".toList]⟩
  checkNetloc := fun _ => .ok ()
  expandHome := fun first => .ok (if first = "~".toList then "/home/codex".toList else first)
  realpath := .ok
  isFile := fun path => path.name = "plot.png".toList || path.name = "sheet.csv".toList
  stat := fun _ => .ok 10
  guessType := fun _ => none
  bucket := Uploads.someBucket
  uuid := fun _ => Uploads.firstUuid
  storageFault := fun path =>
    if path.name = "sheet.csv".toList then some (.clientError "SlowDown") else none
  insertFault := fun _ => none

/-- The end of turn 7 of chat 3, with one partial row. -/
def finalRequest (sources : List String) : Request where
  chatId := 3
  userId := 1
  text := "Done."
  toolCalls := []
  attachments := sources.map fun source => ⟨.file, source, ""⟩
  clientId := none
  turnId := some 7
  partialMsgIds := [4]

def someDatabase : Database where
  uploads := []
  nextUploadId := 1
  messages := [⟨4, 3, .assistant, "Do", none⟩]
  nextMessageId := 5
  turns := [⟨7, none⟩]
  events := []

/-- One file that is there twice, one that S3 rejects, one that is missing, and an address. -/
theorem answer_survives_attachments_four :
    (saved somePlatform (finalRequest ["plot.png", "sheet.csv", "./plot.png", "/work/none",
      "https://host/a.png"]) someDatabase).messages =
        [⟨5, 3, .assistant, "Done.", some ⟨[], [1], none⟩⟩] ∧
      Delivered somePlatform (finalRequest ["plot.png", "sheet.csv", "./plot.png", "/work/none",
        "https://host/a.png"]) someDatabase (saved somePlatform (finalRequest ["plot.png",
          "sheet.csv", "./plot.png", "/work/none", "https://host/a.png"]) someDatabase) :=
  ⟨by decide +kernel, (answer_survives_attachments somePlatform (finalRequest ["plot.png",
    "sheet.csv", "./plot.png", "/work/none", "https://host/a.png"]) someDatabase (by decide)).mpr
    (by decide +kernel)⟩

/-- The address cannot be parsed, the home directory is unknown, or the row of the file does not
fit: the answer is lost. -/
theorem answer_lost :
    ¬Delivered somePlatform (finalRequest ["http://["]) someDatabase
        (saved somePlatform (finalRequest ["http://["]) someDatabase) ∧
      ¬Delivered somePlatform (finalRequest ["~nobody/a.png"]) someDatabase
        (saved somePlatform (finalRequest ["~nobody/a.png"]) someDatabase) ∧
      ¬Delivered { somePlatform with insertFault := fun _ => some "value out of int32 range" }
        (finalRequest ["plot.png"]) someDatabase
        (saved { somePlatform with insertFault := fun _ => some "value out of int32 range" }
          (finalRequest ["plot.png"]) someDatabase) := by
  have hurl : saved somePlatform (finalRequest ["http://["]) someDatabase = someDatabase := by
    decide +kernel
  have huser : saved somePlatform (finalRequest ["~nobody/a.png"]) someDatabase = someDatabase := by
    decide +kernel
  have hinsert : saved { somePlatform with insertFault := fun _ => some "value out of int32 range" }
      (finalRequest ["plot.png"]) someDatabase = someDatabase := by
    decide +kernel
  rw [hurl, huser, hinsert]
  refine ⟨fun h => ?_, fun h => ?_, fun h => ?_⟩
  · cases h.journal
  · cases h.journal
  · cases h.journal

end CodexServer.FinalPersist
