import CodexServer.Library.SafeProgram
import CodexServer.Proof.Redaction
import CodexServer.Proof.Surfaces

/-!
# What an execution writes of errors

As long as no exception leaks that is shown, an execution publishes redacted frames alone and stores no
detail that leaks. The frames of the events are redacted on the way; the others are made of texts of the
code, and of exceptions.
-/

open Async

namespace CodexServer

open Outcome (isEnd translate_isEnd mapCodexTurnStatus_cases)

/-- An answer that no error text comes from. -/
def Harmless (op : Op) : Except Fault op.Val → Prop
  | .ok _ => True
  | .error fault => op.hides fault = true ∨ ¬ fault.Leaks

/-- Neither the text of the exception leaks, nor the status that it reports. -/
def Exn.Discreet : Exn → Prop
  | fault failure => ¬ failure.Leaks
  | codexTurnTerminal _ raw => ¬ Leaks raw

theorem not_leaks_terminal (status : TurnStatus) :
    ¬ Leaks ("codex turn terminal: " ++ status.value) := by
  cases status <;> decide

theorem Exn.Discreet.text {error : Exn} (h : error.Discreet) : ¬ Leaks error.text := by
  cases error with
  | fault failure => exact h
  | codexTurnTerminal status raw => exact not_leaks_terminal status

/-- An exception that `stream_turn` does not show. -/
def Muted (error : Exn) : Prop :=
  (∃ fault : Fault, error = .fault fault ∧ fault.isMuted = true) ∨ error.Discreet

section

variable {Out Local α : Type} {yields : Out → Prop} {Inv : Local → Prop} {returns : α → Prop}

/-- Code that writes nothing that leaks, and raises nothing either. -/
abbrev Discreet (yields : Out → Prop) (Inv : Local → Prop) (returns : α → Prop)
    (code : Code Out Local α) : Prop :=
  Safe Op.Redacted Harmless yields Inv returns Exn.Discreet code

/-- Code inside the `try` of `stream_turn`. -/
abbrev DiscreetInside (yields : Out → Prop) (Inv : Local → Prop) (returns : α → Prop)
    (code : Code Out Local α) : Prop :=
  Safe Op.Redacted Harmless yields Inv returns Muted code

theorem inside {code : Code Out Local α} (h : Discreet yields Inv returns code) :
    DiscreetInside yields Inv returns code := h.weaken (fun _ h => h) fun _ => .inr

theorem discreet_await (op : Op) (hop : op.Redacted) (hhides : ∀ fault, op.hides fault = false) :
    Discreet yields Inv (fun _ => True) (await op : Code Out Local op.Val) := by
  refine safe_await hop (fun _ _ => trivial) fun fault hfault => hfault.resolve_left ?_
  simp [hhides]

theorem inside_await (op : Op) (hop : op.Redacted)
    (hhides : ∀ fault, op.hides fault = true → fault.isMuted = true) :
    DiscreetInside yields Inv (fun _ => True) (await op : Code Out Local op.Val) :=
  safe_await hop (fun _ _ => trivial) fun fault hfault =>
    hfault.imp (fun hhidden => ⟨fault, rfl, hhides fault hhidden⟩) fun hquiet => hquiet

/-- A command whose `RedisError` is answered by a default. -/
theorem safe_orOnRedisError {raises : Exn → Prop} {op : Op} {default : op.Val} (hop : op.Redacted)
    (hfault : ∀ fault, Harmless op (.error fault) → fault.isRedisError = false →
      raises (.fault fault)) :
    Safe Op.Redacted Harmless yields Inv (fun _ => True) raises
      (orOnRedisError (await op : Code Out Local op.Val) default) := by
  have hawait : Safe Op.Redacted Harmless yields Inv (fun _ => True)
      (fun error => ∃ fault, error = .fault fault ∧ Harmless op (.error fault))
      (await op : Code Out Local op.Val) :=
    safe_await hop (fun _ _ => trivial) fun fault hfault => ⟨fault, rfl, hfault⟩
  refine hawait.tryCatch fun error herror => ?_
  split
  · exact safe_pure trivial
  · next hother =>
      obtain ⟨fault, rfl, hharmless⟩ := herror
      refine safe_throw (hfault fault hharmless ?_)
      cases fault with
      | redisError text => exact absurd rfl (hother text)
      | cancelled | timeout | rpcError | staleTurnStream | staleSidecarTurn | queueError | other => rfl

theorem discreet_orOnRedisError {op : Op} {default : op.Val} (hop : op.Redacted)
    (hhides : ∀ fault, op.hides fault = fault.isRedisError) :
    Discreet yields Inv (fun _ => True)
      (orOnRedisError (await op : Code Out Local op.Val) default) := by
  refine safe_orOnRedisError hop fun fault hharmless hother => hharmless.resolve_left ?_
  simp [hhides, hother]

theorem inside_orOnRedisError {op : Op} {default : op.Val} (hop : op.Redacted)
    (hhides : ∀ fault, op.hides fault = (fault.isRedisError || fault.isMuted)) :
    DiscreetInside yields Inv (fun _ => True)
      (orOnRedisError (await op : Code Out Local op.Val) default) := by
  refine safe_orOnRedisError hop fun fault hharmless hother => ?_
  refine hharmless.imp (fun hhidden => ⟨fault, rfl, ?_⟩) fun hquiet => hquiet
  simpa [hhides, hother] using hhidden

/-- `except Exception`: only a cancellation goes on, and it has no text. -/
theorem discreet_exceptException {code : Code Out Local α} {handler : Exn → Code Out Local α}
    {raises : Exn → Prop} (h : Safe Op.Redacted Harmless yields Inv returns raises code)
    (hhandler : ∀ error, raises error → Discreet yields Inv returns (handler error)) :
    Discreet yields Inv returns (exceptException code handler) := by
  refine h.tryCatch fun error herror => ?_
  split
  · exact safe_throw leaks_empty
  · exact hhandler error herror

theorem safe_await_any (op : Op) (hop : op.Redacted) :
    Safe Op.Redacted Harmless yields Inv (fun _ => True) (fun _ => True)
      (await op : Code Out Local op.Val) :=
  safe_await hop (fun _ _ => trivial) fun _ _ => trivial

theorem discreet_interruptBestEffort (threadId codexTurnId : String) :
    Discreet yields Inv (fun _ => True)
      (interruptBestEffort threadId codexTurnId : Code Out Local Unit) := by
  refine Safe.ite (safe_pure trivial) ?_
  exact discreet_exceptException (safe_await_any (.external .interrupt) trivial) fun _ _ =>
    safe_pure trivial

theorem discreet_quarantineThread (threadId : String) :
    Discreet yields Inv (fun _ => True) (quarantineThread threadId : Code Out Local Unit) :=
  Safe.ite (safe_pure trivial) (discreet_orOnRedisError trivial fun _ => rfl)

end

/-! ### The Codex client -/

theorem onTurnCompleted_coded {params : List (String × Json)} {accumulated : String}
    {event : CodexEvent} (h : onTurnCompleted params accumulated = .ok event) :
    event.coded = true := by
  obtain ⟨error, -, h⟩ := Except.bind_eq_ok.mp h
  split at h
  · obtain ⟨message, -, h⟩ := Except.bind_eq_ok.mp h
    split at h
    · cases h
      rfl
    · obtain ⟨text, -, h⟩ := Except.bind_eq_ok.mp h
      cases h
      rfl
  · obtain ⟨status, -, h⟩ := Except.bind_eq_ok.mp h
    split at h
    · cases h
      rfl
    · split at h
      · cases h
        rfl
      · obtain ⟨text, -, h⟩ := Except.bind_eq_ok.mp h
        cases h
        rfl

/-- **The translator** has one code for the errors of Codex. -/
theorem translate_coded {python : Python} {note : Notification} {accumulated : String}
    {event : CodexEvent} (h : translateNotification python note accumulated = .ok (some event)) :
    event.coded = true := by
  cases hend : isEnd event with
  | false =>
      cases event with
      | error | done => cases hend
      | token | toolCall | toolResult => rfl
  | true =>
      have hmethod := translate_isEnd h hend
      unfold translateNotification at h
      simp only [hmethod] at h
      obtain ⟨completed, hcompleted, h⟩ := Except.bind_eq_ok.mp h
      cases h
      exact onTurnCompleted_coded hcompleted

/-- The client yields such events as the translator makes. -/
abbrev DiscreetClient {α : Type} (code : ClientCode α) : Prop :=
  DiscreetInside (fun event => event.coded = true) (fun _ => True) (fun _ => True) code

theorem discreet_idleVerdict (raw : Option String) : DiscreetClient (idleVerdict raw) := by
  unfold idleVerdict
  refine Safe.ite (safe_pure trivial) ?_
  split
  · exact safe_pure trivial
  · exact safe_pure trivial
  · next mapped _ hmapped =>
      refine safe_throw (.inr (?_ : ¬ Leaks (raw.getD "")))
      rcases mapCodexTurnStatus_cases hmapped with
        ⟨rfl, -⟩ | ⟨rfl, -⟩ | ⟨rfl, -⟩ | ⟨rfl, -⟩ <;> decide

theorem discreet_probeOrExtendIdle (threadId codexTurnId : String) (probed : Option String) :
    DiscreetClient (probeOrExtendIdle threadId codexTurnId probed) := by
  have hprobe : Safe Op.Redacted Harmless (fun event : CodexEvent => event.coded = true)
      (fun _ => True) (fun _ => True) (fun _ => True)
      (do await (.external .probe); pure probed : ClientCode (Option String)) :=
    (safe_await_any (.external .probe) trivial).andThen fun _ => safe_pure trivial
  unfold probeOrExtendIdle
  refine Safe.ite (safe_pure trivial) (Safe.andThen ?_ discreet_idleVerdict)
  exact inside (discreet_exceptException hprobe fun _ _ => safe_pure trivial)

theorem discreet_handleSilence (threadId codexTurnId : String) (probed : Option String) :
    DiscreetClient (handleSilence threadId codexTurnId probed) := by
  unfold handleSilence
  refine (discreet_probeOrExtendIdle threadId codexTurnId probed).andThen fun extended => ?_
  refine Safe.ite (safe_pure trivial) ?_
  exact (inside (discreet_interruptBestEffort threadId codexTurnId)).andThen fun _ =>
    safe_pure trivial

theorem discreet_handleIdle (chatId : Nat) (threadId codexTurnId : String)
    (probed : Option String) : DiscreetClient (handleIdle chatId threadId codexTurnId probed) := by
  unfold handleIdle
  refine Safe.andThen (inside_orOnRedisError trivial fun _ => rfl) fun consumed => ?_
  exact Safe.ite (safe_pure trivial) (discreet_handleSilence threadId codexTurnId probed)

theorem discreet_currentTurnNotifications (chatId : Nat) (threadId codexTurnId : String)
    {notes : List CodexNote} (hcoded : ∀ note ∈ notes, note.coded = true) :
    DiscreetClient (currentTurnNotifications chatId threadId codexTurnId notes) := by
  induction notes with
  | nil => exact safe_pure trivial
  | cons note rest ih =>
      obtain ⟨hnote, hrest⟩ := List.forall_mem_cons.mp hcoded
      cases note with
      | event event =>
          unfold currentTurnNotifications
          refine Safe.andThen (inside_await (.nextNote _) trivial fun _ h => h) fun _ => ?_
          refine Safe.andThen (safe_emit hnote) fun _ => ?_
          split
          · exact safe_pure trivial
          · exact safe_pure trivial
          · exact ih hrest
      | idle probed =>
          unfold currentTurnNotifications
          refine Safe.andThen (inside_await (.nextNote _) trivial fun _ h => h) fun _ => ?_
          refine Safe.andThen (discreet_handleIdle chatId threadId codexTurnId probed) fun _ => ?_
          exact Safe.ite (ih hrest) (safe_throw (.inr leaks_empty))

theorem discreet_runTurn {cfg : ExecConfig} (chatId : Nat)
    (hcoded : ∀ note ∈ cfg.script.notes, note.coded = true) :
    DiscreetClient (runTurn cfg chatId) := by
  unfold runTurn markStarted
  refine Safe.andThen (inside_await (.external (.startTurn _)) trivial fun _ h => h) fun _ => ?_
  split
  · exact safe_emit rfl
  · refine Safe.andThen ?_ fun _ => discreet_currentTurnNotifications chatId _ _ hcoded
    exact (inside_await (.markRunning ..) trivial fun _ h => h).andThen fun _ => safe_pure trivial

/-! ### `stream_turn` -/

section

variable {cfg : ExecConfig} {turn : TurnRow}

/-- What the stream yields is redacted. -/
abbrev DiscreetStream {α : Type} (returns : α → Prop) (code : StreamCode α) : Prop :=
  Discreet ChatEvent.Redacted (fun _ => True) returns code

/-- The body of its loop. -/
abbrev DiscreetBody {α : Type} (code : StreamCode α) : Prop :=
  DiscreetInside ChatEvent.Redacted (fun _ => True) (fun _ => True) code

theorem discreet_getLocal : DiscreetStream (fun _ => True) Async.getLocal :=
  safe_getLocal

theorem discreet_modifyLocal (change : StreamState → StreamState) :
    DiscreetStream (fun _ => True) (Async.modifyLocal change) :=
  safe_modifyLocal fun _ _ => trivial

theorem discreet_persistPartialSegment (emitJournal : Bool) :
    DiscreetStream (fun _ => True) (persistPartialSegment cfg turn emitJournal) := by
  unfold persistPartialSegment persistAssistantTurn
  refine discreet_getLocal.andThen fun state => ?_
  refine Safe.andThen ?_ fun _ => discreet_modifyLocal _
  refine Safe.andThen (discreet_await (.persistPartial ..) trivial fun _ => rfl) fun _ => ?_
  exact Safe.andThen (discreet_await .refresh trivial fun _ => rfl) fun _ => safe_pure trivial

theorem discreet_persistSegment : DiscreetStream (fun _ => True) (persistSegment cfg turn) :=
  discreet_getLocal.andThen fun _ =>
    Safe.ite (safe_pure trivial) (discreet_persistPartialSegment false)

theorem discreet_persistVisiblePartial :
    DiscreetStream (fun _ => True) (persistVisiblePartial cfg turn) :=
  discreet_getLocal.andThen fun _ =>
    Safe.ite (safe_pure trivial) (discreet_persistPartialSegment true)

theorem discreet_finalizeTurnPersist :
    DiscreetStream (fun _ => True) (finalizeTurnPersist cfg turn) := by
  unfold finalizeTurnPersist
  refine discreet_getLocal.andThen fun state => ?_
  refine Safe.andThen (discreet_await (.persistFinal ..) trivial fun _ => rfl) fun _ => ?_
  refine Safe.andThen (discreet_await .refresh trivial fun _ => rfl) fun _ => ?_
  exact (discreet_modifyLocal _).andThen fun _ => safe_pure trivial

theorem discreet_emitEvent (kind : EventKind) :
    DiscreetStream (fun _ => True) (emitEvent cfg turn kind) :=
  discreet_await (.emitEvent ..) trivial fun _ => rfl

theorem inside_getLocal : DiscreetBody Async.getLocal := safe_getLocal

theorem inside_modifyLocal (change : StreamState → StreamState) :
    DiscreetBody (Async.modifyLocal change) := safe_modifyLocal fun _ _ => trivial

theorem inside_noteSteerCount (current : Nat) : DiscreetBody (noteSteerCount cfg turn current) := by
  refine inside_getLocal.andThen fun state => Safe.ite (safe_pure trivial) ?_
  exact (inside_modifyLocal _).andThen fun _ => inside discreet_persistSegment

theorem inside_checkSteerBoundary : DiscreetBody (checkSteerBoundary cfg turn) :=
  Safe.andThen (inside_orOnRedisError trivial fun _ => rfl) inside_noteSteerCount

theorem inside_flushTokenBuffer : DiscreetBody flushTokenBuffer := by
  refine inside_getLocal.andThen fun state => Safe.ite (safe_pure trivial) ?_
  exact (inside_modifyLocal _).andThen fun _ => safe_emit (redacted_of_silent rfl)

theorem inside_forwardEvent {event : CodexEvent} (hcoded : event.coded = true) :
    DiscreetBody (forwardEvent cfg turn event) := by
  refine inside_flushTokenBuffer.andThen fun _ => ?_
  refine Safe.andThen (safe_emit (chatEventToPb_redacted hcoded)) fun _ => ?_
  exact inside_checkSteerBoundary.andThen fun _ => safe_pure trivial

theorem inside_coalesceToken (delta : String) : DiscreetBody (coalesceToken cfg turn delta) := by
  refine (inside_modifyLocal _).andThen fun _ => inside_getLocal.andThen fun state => ?_
  refine Safe.ite ?_ (safe_pure trivial)
  refine inside_flushTokenBuffer.andThen fun _ => ?_
  exact inside_checkSteerBoundary.andThen fun _ => safe_pure trivial

theorem inside_handleEvent {event : CodexEvent} (hcoded : event.coded = true) :
    DiscreetBody (handleEvent cfg turn event) := by
  cases event with
  | error code detail =>
      refine inside_flushTokenBuffer.andThen fun _ => ?_
      refine Safe.andThen (safe_emit (chatEventToPb_redacted hcoded)) fun _ => ?_
      exact (inside (discreet_emitEvent .turnFailed)).andThen fun _ => safe_pure trivial
  | done text =>
      refine inside_flushTokenBuffer.andThen fun _ => ?_
      exact inside_checkSteerBoundary.andThen fun _ => safe_pure trivial
  | token delta => exact Safe.ite (inside_coalesceToken delta) (inside_forwardEvent hcoded)
  | toolCall | toolResult => exact inside_forwardEvent hcoded

theorem inside_streamEvent {event : CodexEvent} (hcoded : event.coded = true) :
    DiscreetBody (streamEvent cfg turn event) := by
  refine Safe.andThen (inside_orOnRedisError trivial fun _ => rfl) fun _ => ?_
  exact (inside_modifyLocal _).andThen fun _ => inside_handleEvent hcoded

theorem discreet_eventFromProbeTerminal (status : TurnStatus) {raw : String}
    (hraw : ¬ Leaks raw) :
    DiscreetStream ChatEvent.Redacted (eventFromProbeTerminal cfg turn status raw) := by
  refine discreet_getLocal.andThen fun state => Safe.ite (Safe.ite ?_ ?_) ?_
  · exact discreet_finalizeTurnPersist.andThen fun _ => safe_pure (redacted_of_silent rfl)
  · exact safe_pure (redacted_of_silent rfl)
  · have hcode := (leaks_append_left "codex_reported_" (by decide) raw).not.mpr hraw
    exact discreet_persistVisiblePartial.andThen fun _ =>
      safe_pure (redacted_errorEvent hcode hraw)

theorem not_leaks_idle (seconds : Nat) : ¬ Leaks ("idle>" ++ toString seconds ++ ".0s") := by
  refine not_leaks_of_not_mem ?_
  simpa only [String.toList_append, List.mem_append, not_or] using
    ⟨⟨by decide, not_mem_toString seconds⟩, by decide⟩

/-- What the `except` clauses say: of a muted exception nothing. -/
theorem discreet_streamFailed {error : Exn} (h : Muted error) :
    DiscreetStream (fun _ => True) (streamFailed cfg turn error) := by
  unfold streamFailed
  split
  · have htext := h.resolve_left (by simp)
    exact (discreet_eventFromProbeTerminal _ htext).bind fun _ hevent => safe_emit hevent
  · refine (discreet_interruptBestEffort _ _).andThen fun _ => ?_
    refine (discreet_quarantineThread _).andThen fun _ => ?_
    refine discreet_persistVisiblePartial.andThen fun _ => ?_
    refine Safe.andThen (safe_emit (redacted_errorEvent (by decide) (by decide))) fun _ => ?_
    exact discreet_emitEvent .threadReset
  · refine (discreet_interruptBestEffort _ _).andThen fun _ => ?_
    refine (discreet_quarantineThread _).andThen fun _ => ?_
    refine discreet_persistVisiblePartial.andThen fun _ => ?_
    refine Safe.andThen (safe_emit (redacted_errorEvent (by decide) (not_leaks_idle _))) fun _ => ?_
    exact discreet_emitEvent .turnFailed
  · refine (discreet_interruptBestEffort _ _).andThen fun _ => ?_
    refine discreet_persistVisiblePartial.andThen fun _ => ?_
    exact (discreet_emitEvent .turnInterrupted).andThen fun _ => safe_throw leaks_empty
  · next hstale htimeout hcancelled =>
      have htext : ¬ Leaks error.text := by
        refine (h.resolve_left ?_).text
        rintro ⟨fault, rfl, hmuted⟩
        cases fault with
        | timeout text => exact htimeout text rfl
        | staleTurnStream text => exact hstale text rfl
        | cancelled | redisError | rpcError | staleSidecarTurn | queueError | other => cases hmuted
      refine Safe.andThen (safe_emit (redacted_errorEvent (by decide) htext)) fun _ => ?_
      exact discreet_emitEvent .turnFailed

theorem discreet_streamDone : DiscreetStream (fun _ => True) (streamDone cfg turn) := by
  refine discreet_getLocal.andThen fun state => Safe.ite ?_ ?_
  · exact discreet_finalizeTurnPersist.andThen fun _ => safe_emit (redacted_of_silent rfl)
  · refine Safe.andThen (safe_emit (redacted_errorEvent (by decide) (by decide))) fun _ => ?_
    exact discreet_emitEvent .turnFailed

theorem discreet_streamTurn (turn : TurnRow)
    (hcoded : ∀ note ∈ cfg.script.notes, note.coded = true) :
    DiscreetStream (fun _ => True) (streamTurn cfg turn) := by
  have hclient := safe_generator () (discreet_runTurn turn.chatId hcoded) trivial
  have hloop : DiscreetBody (Async.forEach (streamEvent cfg turn)
      (Async.generator (runTurn cfg turn.chatId) ())) :=
    safe_forEach hclient fun _ => inside_streamEvent
  refine hloop.attempt.bind fun outcome houtcome => ?_
  split
  · exact discreet_streamFailed houtcome
  · exact safe_pure trivial
  · exact discreet_streamDone
  · exact discreet_streamDone

end

/-! ### `execute_turn_inner` -/

section

variable {cfg : ExecConfig} {turn : TurnRow} {α : Type}

/-- The outcome that the execution has noted down does not leak. -/
def ExecLocals.Redacted (locals : ExecLocals) : Prop := RedactedOutcome locals.terminalError

abbrev DiscreetExec (code : ExecCode α) : Prop :=
  Discreet (fun _ => True) ExecLocals.Redacted (fun _ => True) code

/-- After the `except` clauses nothing is made of what is raised. -/
abbrev DiscreetFinally (code : ExecCode α) : Prop :=
  Safe Op.Redacted Harmless (fun _ => True) ExecLocals.Redacted (fun _ => True) (fun _ => True) code

theorem redactedOutcome_some {code detail : String} (hcode : ¬ Leaks code)
    (hdetail : ¬ Leaks detail) : RedactedOutcome (some code, some detail) := by
  intro text htext
  rcases List.mem_cons.mp htext with rfl | hlater
  · exact hcode
  · exact List.mem_singleton.mp hlater ▸ hdetail

theorem redactedOutcome_terminalOf {event : ChatEvent} (h : event.Redacted)
    {outcome : TerminalStatus × Option String × Option String}
    (hterminal : terminalOf event = some outcome) : RedactedOutcome outcome.2 := by
  unfold terminalOf at hterminal
  split at hterminal
  · cases hterminal
    exact nofun
  · next code detail eventId =>
      have hcode : ¬ Leaks code := h code List.mem_cons_self
      have hdetail : ¬ Leaks (detail.getD "") := by
        cases detail with
        | none => exact leaks_empty
        | some detail => exact h detail (List.mem_cons_of_mem _ List.mem_cons_self)
      cases hterminal
      refine redactedOutcome_some ?_ hdetail
      split
      · decide
      · exact hcode
  · cases hterminal

/-- A frame with the parts of an outcome that are there, and defaults for the others. -/
theorem redacted_ofOutcome {outcome : Option String × Option String} (h : RedactedOutcome outcome)
    {code detail : String} (hcode : ¬ Leaks code) (hdetail : ¬ Leaks detail) :
    (errorEvent ((outcome.1.filter (· ≠ "")).getD code)
      (some ((outcome.2.filter (· ≠ "")).getD detail))).Redacted := by
  have hgiven : ∀ {text : Option String} {default : String}, (∀ given ∈ text, ¬ Leaks given) →
      ¬ Leaks default → ¬ Leaks ((text.filter (· ≠ "")).getD default) := by
    intro text default htext hdefault
    cases hfilter : text.filter (· ≠ "") with
    | none => exact hdefault
    | some given => exact htext given (Option.mem_filter_iff.mp hfilter).1
  refine redacted_errorEvent (hgiven (fun given hmem => ?_) hcode)
    (hgiven (fun given hmem => ?_) hdetail)
  · exact h given (List.mem_append_left _ (Option.mem_toList.mpr hmem))
  · exact h given (List.mem_append_right _ (Option.mem_toList.mpr hmem))

theorem redacted_buildTerminalEvent (status : Option TerminalStatus)
    {outcome : Option String × Option String} (h : RedactedOutcome outcome) :
    (buildTerminalEvent status outcome).Redacted := by
  unfold buildTerminalEvent
  split
  · exact redacted_of_silent rfl
  · exact redacted_ofOutcome h (by decide) (by decide)

theorem discreet_publish (cfg : ExecConfig) {event : ChatEvent} (h : event.Redacted) :
    DiscreetExec (publish cfg.turnId event) := by
  refine Safe.andThen (discreet_await (.xadd ..) h fun _ => rfl) fun rawId => ?_
  exact Safe.andThen (discreet_await (.expireStream _) trivial fun _ => rfl) fun _ =>
    safe_pure trivial

theorem discreet_forwardFrame {event : ChatEvent} (h : event.Redacted) :
    DiscreetExec (forwardFrame cfg event) := by
  refine Safe.andThen (discreet_await .ownershipLost trivial fun _ => rfl) fun lost => ?_
  refine Safe.ite ?_ ?_
  · refine (safe_modifyLocal fun _ _ => ?_).andThen fun _ => safe_pure trivial
    exact redactedOutcome_some (by decide) (by decide)
  · refine (discreet_publish cfg h).andThen fun eventId => ?_
    refine Safe.andThen (discreet_await (.updateLastEvent ..) trivial fun _ => rfl) fun _ => ?_
    split
    · next status code detail hterminal =>
        refine (safe_modifyLocal fun locals hlocals => ?_).andThen fun _ => safe_pure trivial
        change RedactedOutcome (if status = .failed then (code, detail) else locals.terminalError)
        split
        · exact redactedOutcome_terminalOf h hterminal
        · exact hlocals
    · exact safe_pure trivial

theorem discreet_runCodexTurn (hcoded : ∀ note ∈ cfg.script.notes, note.coded = true) :
    DiscreetExec (runCodexTurn cfg turn) := by
  have hstream := safe_generator {} (discreet_streamTurn turn hcoded) trivial
  have hloop : DiscreetExec (Async.forEach (forwardFrame cfg)
      (Async.generator (streamTurn cfg turn) {})) :=
    safe_forEach hstream fun _ => discreet_forwardFrame
  refine Safe.andThen (discreet_await (.external .openCodex) trivial fun _ => rfl) fun _ => ?_
  refine Safe.tryFinally (hloop.andThen fun _ => safe_pure trivial) ?_
  exact discreet_await (.external .closeCodex) trivial fun _ => rfl

theorem discreet_acquire (holder : Nat) :
    DiscreetExec (Lease.acquire cfg.turnId holder : ExecCode Bool) := by
  refine Safe.andThen (discreet_orOnRedisError trivial fun _ => rfl) fun acquired => ?_
  refine Safe.ite ?_ (safe_pure trivial)
  exact Safe.andThen (discreet_await (.addActiveLease ..) trivial fun _ => rfl) fun _ =>
    safe_pure trivial

theorem discreet_withOutcome (hcoded : ∀ note ∈ cfg.script.notes, note.coded = true)
    (outcome : LockAcquireOutcome) : DiscreetExec (withOutcome cfg turn outcome) := by
  cases outcome with
  | redelivery => exact safe_modifyLocal fun _ h => h
  | activeBusy => exact safe_modifyLocal fun _ _ => redactedOutcome_some (by decide) (by decide)
  | acquired =>
      refine (discreet_acquire cfg.holder).andThen fun leased => Safe.ite ?_ ?_
      · refine Safe.andThen (safe_modifyLocal fun _ h => h) fun _ => ?_
        refine Safe.andThen (discreet_await (.startHeartbeat ..) trivial fun _ => rfl) fun _ => ?_
        exact Safe.andThen (safe_modifyLocal fun _ h => h) fun _ => discreet_runCodexTurn hcoded
      · exact safe_modifyLocal fun _ h => h

theorem discreet_holdTurnLocks {code : LockAcquireOutcome → ExecCode Unit} (chatId turnId : Nat)
    (hcode : ∀ outcome, DiscreetExec (code outcome)) :
    DiscreetExec (Locks.holdTurnLocks chatId turnId code) := by
  refine Safe.andThen (discreet_orOnRedisError trivial fun _ => rfl) fun acquired => ?_
  refine Safe.ite (Safe.tryFinally (hcode .acquired) ?_) ?_
  · exact Safe.andThen (discreet_orOnRedisError trivial fun _ => rfl) fun _ =>
      safe_pure trivial
  · refine Safe.andThen (Safe.andThen ?_ fun _ => safe_pure trivial) hcode
    exact discreet_orOnRedisError trivial fun _ => rfl

/-- The text of the exception goes into the outcome and into the frame. -/
theorem discreet_executionFailed {error : Exn} (h : error.Discreet) :
    DiscreetFinally (executionFailed cfg error) := by
  unfold executionFailed
  split
  · exact Safe.andThen (safe_modifyLocal fun _ hlocals => hlocals) fun _ => safe_throw trivial
  · have hdetail := (leaks_append_left "background crashed: " (by decide) _).not.mpr h.text
    refine Safe.andThen (safe_modifyLocal fun _ _ =>
      redactedOutcome_some (by decide) hdetail) fun _ => ?_
    have hpublish := discreet_publish cfg (redacted_errorEvent
      (show ¬ Leaks CodexErrorCode.codexError by decide) hdetail)
    refine Safe.weaken (discreet_exceptException (hpublish.andThen fun _ =>
      safe_modifyLocal fun _ hlocals => hlocals) fun _ _ => safe_pure trivial) ?_ ?_
    · exact fun _ h => h
    · exact fun _ _ => trivial

theorem discreet_releaseHeld (holder : Option Nat) : DiscreetFinally (releaseHeld cfg holder) := by
  cases holder with
  | none => exact safe_pure trivial
  | some holder =>
      refine Safe.andThen (Safe.andThen (safe_await_any (.discardActiveLease ..) trivial) fun _ => ?_)
        fun _ => safe_pure trivial
      refine (safe_await_any (.releaseLease ..) trivial).tryCatch fun error _ => ?_
      split
      · exact safe_pure trivial
      · exact safe_throw trivial

theorem discreet_teardown : DiscreetFinally (teardown cfg) := by
  refine (safe_getLocal.weaken (fun _ _ => trivial) fun _ h => h).andThen fun locals => ?_
  refine Safe.ite ?_ (safe_pure trivial)
  exact ((safe_await_any .stopHeartbeat trivial).attempt.weaken (fun _ _ => trivial)
    fun _ h => h).andThen fun _ => discreet_releaseHeld _

theorem discreet_publishSafetyTerminal : DiscreetFinally (publishSafetyTerminal cfg) := by
  refine safe_getLocal.bind fun locals hlocals => Safe.ite (safe_pure trivial) ?_
  have hpublish : DiscreetExec (do
      let _ ← publish cfg.turnId (buildTerminalEvent locals.terminalStatus locals.terminalError)
      pure ()) :=
    (discreet_publish cfg (redacted_buildTerminalEvent _ hlocals)).andThen fun _ => safe_pure trivial
  refine Safe.weaken (discreet_exceptException hpublish fun _ _ => safe_pure trivial) ?_ ?_
  · exact fun _ h => h
  · exact fun _ _ => trivial

theorem discreet_finalizeTurn : DiscreetFinally (finalizeTurn cfg) := by
  refine safe_getLocal.bind fun locals hlocals => ?_
  split
  · refine Safe.ite (safe_pure trivial) ?_
    exact Safe.andThen (safe_await_any (.finalizeOnce ..) hlocals) fun _ => safe_pure trivial
  · exact safe_pure trivial

theorem discreet_executionFinally : DiscreetFinally (executionFinally cfg) := by
  refine discreet_teardown.andThen fun _ => discreet_publishSafetyTerminal.andThen fun _ => ?_
  refine discreet_finalizeTurn.andThen fun _ => safe_getLocal.bind fun locals _ => ?_
  refine Safe.ite (safe_pure trivial) ?_
  refine Safe.andThen (safe_await_any (.external .decrActive) trivial) fun _ => ?_
  exact Safe.ite (safe_await_any (.external .deleteActive) trivial) (safe_pure trivial)

theorem discreet_executeLoaded (hcoded : ∀ note ∈ cfg.script.notes, note.coded = true) :
    DiscreetFinally (executeLoaded cfg turn) := by
  refine Safe.tryFinally (Safe.tryCatch ?_ fun _ => discreet_executionFailed)
    discreet_executionFinally
  exact discreet_holdTurnLocks _ _ (discreet_withOutcome hcoded)

/-- **An execution** publishes redacted frames alone and stores no outcome that leaks. -/
theorem safe_executeTurn (hcoded : ∀ note ∈ cfg.script.notes, note.coded = true) :
    (executeTurn cfg).Safe Op.Redacted Harmless (fun _ => True) (fun _ => True) := by
  have hinner : DiscreetFinally (executeTurnInner cfg) := by
    refine Safe.andThen (safe_await_any (.getTurn _) trivial) fun found => ?_
    split
    · exact safe_pure trivial
    · refine Safe.ite (safe_pure trivial) ?_
      refine Safe.andThen (safe_await_any (.getUser _) trivial) fun user => ?_
      exact Safe.ite (discreet_executeLoaded hcoded) (safe_pure trivial)
  exact Program.safe_bind.mpr ((hinner {} nofun).mono fun _ _ => trivial)

end

end CodexServer
