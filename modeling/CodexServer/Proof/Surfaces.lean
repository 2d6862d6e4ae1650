import CodexServer.Proof.AgentText
import CodexServer.Proof.Outcome
import CodexServer.Library.Fallible

/-!
# Web and Telegram agree on the outcome

A turn ends with an event, with an answer of the idle probe, or with neither. What Codex has reported
is what both surfaces make of it, but for an interruption and for a notification that contradicts
itself.
-/

open Program (Runs)

namespace CodexServer.Outcome

open CodexTurn Transition

/-! ### The event that ends a turn -/

def isEnd : CodexEvent → Bool
  | .done _ | .error _ _ => true
  | _ => false

/-- What a completed item adds: text, or the result of a tool. -/
def isOutput : CodexEvent → Bool
  | .token _ | .toolResult .. => true
  | _ => false

theorem isEnd_of_isOutput {event : CodexEvent} (h : isOutput event = true) :
    isEnd event = false := by
  cases event with
  | token | toolResult => rfl
  | toolCall | done | error => cases h

section

variable {python : Python} {item : Json} {event : CodexEvent}

theorem genericToolCall_isEnd (h : genericToolCall python item = .ok (some event)) :
    isEnd event = false := by
  obtain ⟨toolName, -, h⟩ := Except.bind_eq_ok.mp h
  split at h
  · cases h
  · obtain ⟨name, -, h⟩ := Except.bind_eq_ok.mp h
    obtain ⟨arguments, -, h⟩ := Except.bind_eq_ok.mp h
    split at h <;> cases h
    rfl

theorem genericToolResult_isOutput (h : genericToolResult item = .ok (some event)) :
    isOutput event = true := by
  obtain ⟨toolName, -, h⟩ := Except.bind_eq_ok.mp h
  split at h
  · cases h
  · obtain ⟨name, -, h⟩ := Except.bind_eq_ok.mp h
    obtain ⟨text, -, h⟩ := Except.bind_eq_ok.mp h
    obtain ⟨field, -, h⟩ := Except.bind_eq_ok.mp h
    obtain ⟨error, -, h⟩ := Except.bind_eq_ok.mp h
    cases h
    rfl

theorem toStarted_isEnd {spec : BuiltinSpec} (h : spec.toStarted python item = .ok event) :
    isEnd event = false := by
  obtain ⟨label, -, h⟩ := Except.bind_eq_ok.mp h
  obtain ⟨args, -, h⟩ := Except.bind_eq_ok.mp h
  obtain ⟨name, -, h⟩ := Except.bind_eq_ok.mp h
  cases h
  rfl

theorem toCompleted_isOutput {spec : BuiltinSpec} (h : spec.toCompleted item = .ok event) :
    isOutput event = true := by
  obtain ⟨label, -, h⟩ := Except.bind_eq_ok.mp h
  obtain ⟨text, -, h⟩ := Except.bind_eq_ok.mp h
  obtain ⟨attachments, -, h⟩ := Except.bind_eq_ok.mp h
  obtain ⟨field, -, h⟩ := Except.bind_eq_ok.mp h
  obtain ⟨error, -, h⟩ := Except.bind_eq_ok.mp h
  obtain ⟨name, -, h⟩ := Except.bind_eq_ok.mp h
  cases h
  rfl

theorem dynamicToolCall_isOutput (h : dynamicToolCallToEvent item = .ok event) :
    isOutput event = true := by
  obtain ⟨tool, -, h⟩ := Except.bind_eq_ok.mp h
  obtain ⟨contentItems, -, h⟩ := Except.bind_eq_ok.mp h
  obtain ⟨entries, -, h⟩ := Except.bind_eq_ok.mp h
  obtain ⟨contents, -, h⟩ := Except.bind_eq_ok.mp h
  obtain ⟨parts, -, h⟩ := Except.bind_eq_ok.mp h
  obtain ⟨field, -, h⟩ := Except.bind_eq_ok.mp h
  obtain ⟨error, -, h⟩ := Except.bind_eq_ok.mp h
  obtain ⟨name, -, h⟩ := Except.bind_eq_ok.mp h
  cases h
  rfl

theorem agentMessage_isOutput {text accumulated : String}
    (h : agentMessageToToken text accumulated = some event) : isOutput event = true := by
  unfold agentMessageToToken at h
  split at h
  · cases h
  · split at h <;> cases h
    rfl

theorem onItemStarted_isEnd (h : onItemStarted python item = .ok (some event)) :
    isEnd event = false := by
  obtain ⟨itemType, -, h⟩ := Except.bind_eq_ok.mp h
  split at h
  · cases h
  · cases h
  · split at h
    · cases h
    · split at h
      · obtain ⟨started, hstarted, h⟩ := Except.bind_eq_ok.mp h
        cases h
        exact toStarted_isEnd hstarted
      · exact genericToolCall_isEnd h
  · exact genericToolCall_isEnd h

theorem onItemCompleted_isOutput {accumulated : String}
    (h : onItemCompleted python item accumulated = .ok (some event)) : isOutput event = true := by
  obtain ⟨itemType, -, h⟩ := Except.bind_eq_ok.mp h
  split at h
  · cases h
  · cases h
  · split at h
    · obtain ⟨field, -, h⟩ := Except.bind_eq_ok.mp h
      obtain ⟨text, -, h⟩ := Except.bind_eq_ok.mp h
      exact agentMessage_isOutput (Except.ok.inj h)
    · split at h
      · cases h
      · split at h
        · obtain ⟨called, hcalled, h⟩ := Except.bind_eq_ok.mp h
          cases h
          exact dynamicToolCall_isOutput hcalled
        · split at h
          · obtain ⟨completed, hcompleted, h⟩ := Except.bind_eq_ok.mp h
            cases h
            exact toCompleted_isOutput hcompleted
          · exact genericToolResult_isOutput h
  · exact genericToolResult_isOutput h

/-- Only `turn/completed` ends a turn. -/
theorem translate_isEnd {note : Notification} {accumulated : String}
    (h : translateNotification python note accumulated = .ok (some event))
    (hend : isEnd event = true) : note.method = CodexNotif.turnCompleted := by
  unfold translateNotification at h
  split at h
  · cases h
  · split at h
    · obtain ⟨delta, -, h⟩ := Except.bind_eq_ok.mp h
      dsimp only at h
      split at h
      · obtain ⟨text, -, h⟩ := Except.bind_eq_ok.mp h
        cases h
        cases hend
      · cases h
    · split at h
      · obtain ⟨started, -, h⟩ := Except.bind_eq_ok.mp h
        simp [onItemStarted_isEnd h] at hend
      · split at h
        · obtain ⟨completed, -, h⟩ := Except.bind_eq_ok.mp h
          simp [isEnd_of_isOutput (onItemCompleted_isOutput h)] at hend
        · split at h
          · assumption
          · cases h

end

/-- The end of a turn is an error event when the notification has an error or a failure, and a done
event else. -/
theorem onTurnCompleted_failure {note : Notification} {accumulated : String} {event : CodexEvent}
    (h : onTurnCompleted note.params accumulated = .ok event) :
    (∃ text, event = .done text ∧ notesFailure note = false) ∨
      ∃ code detail, event = .error code detail ∧ notesFailure note = true := by
  obtain ⟨error, herror, h⟩ := Except.bind_eq_ok.mp h
  have hfields : error = (turnFields note).lookup "error" ∧
      ((note.params.lookup "turn").getD (.object [])).get "status" =
        .ok ((turnFields note).lookup "status") := by
    unfold turnFields
    cases hturn : note.params.lookup "turn" with
    | none =>
        rw [hturn] at herror
        cases herror
        exact ⟨rfl, rfl⟩
    | some turn =>
        rw [hturn] at herror
        cases turn with
        | object fields =>
            cases herror
            exact ⟨rfl, rfl⟩
        | _ => cases herror
  obtain ⟨rfl, hstatus⟩ := hfields
  split at h
  · rename_i error hsome
    obtain ⟨hlookup, htruthy⟩ := Option.filter_eq_some_iff.mp hsome
    have hfailure : notesFailure note = true := by
      simp [notesFailure, hlookup, htruthy]
    obtain ⟨message, -, h⟩ := Except.bind_eq_ok.mp h
    split at h
    · cases h
      exact .inr ⟨_, _, rfl, hfailure⟩
    · obtain ⟨text, -, h⟩ := Except.bind_eq_ok.mp h
      cases h
      exact .inr ⟨_, _, rfl, hfailure⟩
  · rename_i hnone
    have hquiet : ((turnFields note).lookup "error").any Json.truthy = false := by
      cases hlookup : (turnFields note).lookup "error" with
      | none => rfl
      | some error => simpa [hlookup] using hnone
    obtain ⟨status, hread, h⟩ := Except.bind_eq_ok.mp h
    rw [hstatus] at hread
    cases hread
    split at h
    · rename_i hfailed
      cases h
      exact .inr ⟨_, _, rfl, by simp [notesFailure, notedStatus, hfailed]⟩
    · rename_i hother
      have hfailure : notesFailure note = false := by
        simp [notesFailure, notedStatus, hquiet, hother]
      split at h
      · cases h
        exact .inl ⟨_, rfl, hfailure⟩
      · obtain ⟨text, -, h⟩ := Except.bind_eq_ok.mp h
        cases h
        exact .inl ⟨_, rfl, hfailure⟩

/-! ### How a turn ends -/

/-- The last event and its notification. -/
structure Closing (options : Options) (session : Session) (event : CodexEvent) : Prop where
  isEnd : isEnd event = true
  events : ∃ before, session.events = before ++ [event] ∧
    ∀ earlier ∈ before, Outcome.isEnd earlier = false
  note : ∃ notes note accumulated, session.yielded = notes ++ [note] ∧
    translateNotification options.python note accumulated = .ok (some event)

/-- An end event is the last thing a finished turn has yielded, and what a turn raises is a status
that the probe has reported. -/
structure Told (options : Options) (session : Session) : Prop where
  running : session.exit? ≠ some .finished → ∀ event ∈ session.events, isEnd event = false
  finished : session.exit? = some .finished → ∃ event, Closing options session event
  raised : ∀ error, session.exit? = some (.raised error) → ∃ mapped raw,
    error = .codexTurnTerminal mapped raw ∧ mapCodexTurnStatus (some raw) = some mapped ∧
      mapped.isTerminal = true

variable {options : Options} {session next : Session}

theorem Told.same (h : Told options session) (hevents : next.events = session.events)
    (hyielded : next.yielded = session.yielded) (hexit : next.exit? = session.exit?) :
    Told options next := by
  refine ⟨?_, fun hfinished => ?_, ?_⟩
  · rw [hexit, hevents]
    exact h.running
  · obtain ⟨event, hclosing⟩ := h.finished (hexit ▸ hfinished)
    exact ⟨event, hclosing.isEnd, hevents ▸ hclosing.events, hyielded ▸ hclosing.note⟩
  · rw [hexit]
    exact h.raised

/-- A turn that goes on or ends without an end event. -/
theorem Told.leave (h : ∀ event ∈ next.events, isEnd event = false)
    (hfinished : next.exit? ≠ some .finished) (hraised : ∀ error, next.exit? ≠ some (.raised error)) :
    Told options next :=
  ⟨fun _ => h, fun h => absurd h hfinished, fun error h => absurd h (hraised error)⟩

theorem translate_told (note : Notification)
    (hopen : ∀ event ∈ session.events, isEnd event = false) :
    Told options (session.translate options note) := by
  unfold Session.translate
  cases htranslate : translateNotification options.python note session.accumulated with
  | error error =>
      refine .leave hopen ?_ fun _ => ?_ <;> simp [Session.exit?, Session.endWith]
  | ok event =>
      cases event with
      | none => refine .leave hopen ?_ fun _ => ?_ <;> simp [Session.exit?]
      | some event =>
          have hlast (hpassing : isEnd event = false) :
              ∀ earlier ∈ session.events ++ [event], isEnd earlier = false := by
            intro earlier hmem
            rcases List.mem_append.mp hmem with hbefore | hnew
            · exact hopen earlier hbefore
            · exact List.mem_singleton.mp hnew ▸ hpassing
          have hclosing (hend : isEnd event = true) : Told options
              ({ session with
                yielded := session.yielded ++ [note]
                diagnostics := session.diagnostics.absorbRaw options.python note
                events := session.events ++ [event] }.endWith .finished) :=
            ⟨fun h => absurd rfl h, fun _ => ⟨event, hend, ⟨_, rfl, hopen⟩, _, note, _, rfl, htranslate⟩,
              fun _ h => by cases h⟩
          cases event with
          | token | toolCall | toolResult =>
              refine .leave (hlast rfl) ?_ fun _ => ?_ <;> simp [Session.exit?]
          | done | error => exact hclosing rfl

theorem handle_of_passes {note : Notification} (hpasses : note.passes options.turnId = true) :
    session.handle options note = (session.extendIdleDeadline options).translate options note := by
  simp only [Notification.passes, Bool.and_eq_true, Bool.not_eq_true'] at hpasses
  obtain ⟨⟨haccount, hstale⟩, hnoise⟩ := hpasses
  simp [Session.handle, haccount, hstale, hnoise]

theorem handle_told (note : Notification)
    (hopen : ∀ event ∈ session.events, isEnd event = false) :
    Told options (session.handle options note) := by
  cases hpasses : note.passes options.turnId with
  | true =>
      rw [handle_of_passes hpasses]
      have hevents : (session.extendIdleDeadline options).events = session.events :=
        congrArg Ledger.events Session.extendIdleDeadline_ledger
      exact translate_told note (hevents ▸ hopen)
  | false =>
      have hledger := @Session.handle_ledger options session note
      have hevents : (session.handle options note).events = session.events := by
        rw [hpasses, if_neg Bool.false_ne_true] at hledger
        exact congrArg Ledger.events hledger
      have hexit {exit : Exit} (h : (session.handle options note).exit? = some exit) :
          exit = .staleTurnStream := by
        rcases Session.handle_exit h with ⟨rfl, -⟩ | ⟨hthrough, -⟩
        · rfl
        · simp [hpasses] at hthrough
      exact .leave (hevents ▸ hopen) (fun h => nomatch hexit h) fun _ h => nomatch hexit h

/-- Once a turn has ended it does nothing more. -/
theorem step_open {action : Action} (hstep : step options session action = some next) :
    session.exit? = none ∨ next.exit? = session.exit? ∧ next.events = session.events ∧
      next.yielded = session.yielded := by
  cases action with
  | arrive entry =>
      cases hstep
      exact .inr ⟨rfl, rfl, rfl⟩
  | elapse duration =>
      simp only [step] at hstep
      split at hstep <;> cases hstep
      exact .inr ⟨rfl, rfl, rfl⟩
  | extend =>
      cases hstep
      exact .inr ⟨by simp [Session.exit?], congrArg Ledger.events Session.extendIdleDeadline_ledger,
        congrArg Ledger.yielded Session.extendIdleDeadline_ledger⟩
  | resume =>
      left
      cases hpoint : session.point <;> simp_all [step, Session.resume, Session.exit?]
  | timeOut =>
      left
      cases hpoint : session.point <;> simp_all [step, Session.exit?]
  | answerIdle moves answer =>
      left
      cases hpoint : session.point <;> simp_all [step, Session.exit?]
  | answerAccount =>
      left
      cases hpoint : session.point <;> simp_all [step, Session.exit?]
  | raise error =>
      left
      cases hpoint : session.point <;> simp_all [step, Session.exit?]

/-- An exception that comes from the probe. -/
def Probed (error : Exn) : Prop :=
  ∃ mapped raw, error = .codexTurnTerminal mapped raw ∧ mapCodexTurnStatus (some raw) = some mapped ∧
    mapped.isTerminal = true

theorem step_told {action : Action} (hprobed : ∀ error, action = .raise error → Probed error)
    (h : Told options session) (hstep : step options session action = some next) :
    Told options next := by
  rcases step_open hstep with hgoing | ⟨hexit, hevents, hyielded⟩
  · have hopen := h.running (hgoing ▸ nofun)
    cases step_moves hstep with
    | arrive entry => exact h.same rfl rfl rfl
    | quiet hledger hexit =>
        exact h.same (congrArg Ledger.events hledger) (congrArg Ledger.yielded hledger) hexit
    | lapse _ hledger hexit =>
        have hevents : next.events = session.events := congrArg Ledger.events hledger
        refine .leave (hevents ▸ hopen) ?_ fun _ => ?_ <;> simp [hexit]
    | raised error =>
        refine ⟨fun _ => hopen, nofun, fun _ h => ?_⟩
        cases h
        exact hprobed error rfl
    | exhausted => refine .leave hopen ?_ fun _ => ?_ <;> simp [Session.exit?, Session.endWith]
    | sentinel => refine .leave hopen ?_ fun _ => ?_ <;> simp [Session.exit?, Session.endWith]
    | took => exact handle_told _ hopen
  · exact h.same hevents hyielded hexit

theorem mapCodexTurnStatus_cases {raw : Option String} {status : TurnStatus}
    (h : mapCodexTurnStatus raw = some status) :
    (raw = some "inProgress" ∧ status = .running) ∨ (raw = some "completed" ∧ status = .completed) ∨
      (raw = some "interrupted" ∧ status = .cancelled) ∨ (raw = some "failed" ∧ status = .failed) := by
  unfold mapCodexTurnStatus at h
  split at h <;> cases h <;> simp

theorem probeAnswer_probed {raw : Option String} {error : Exn}
    (h : probeAnswer raw = .raise error) : Probed error := by
  cases hmapped : mapCodexTurnStatus raw with
  | none =>
      unfold probeAnswer at h
      rw [hmapped] at h
      split at h <;> cases h
  | some mapped =>
      rcases mapCodexTurnStatus_cases hmapped with
        ⟨rfl, rfl⟩ | ⟨rfl, rfl⟩ | ⟨rfl, rfl⟩ | ⟨rfl, rfl⟩ <;> cases h <;> exact ⟨_, _, rfl, rfl, rfl⟩

theorem hear_told {input : Input} (h : Told options session)
    (hstep : hear options session input = some next) : Told options next := by
  cases input with
  | own action =>
      simp only [hear] at hstep
      split at hstep
      · cases hstep
      · rename_i hown
        refine step_told (fun error hraise => ?_) h hstep
        simp [hraise, isCallback] at hown
  | probe raw =>
      simp only [hear] at hstep
      split at hstep
      · exact step_told (fun error => probeAnswer_probed) h hstep
      · cases hstep

/-! ### The outcomes -/

/-- The outcome of a turn that ends with this event. -/
def endStatus : CodexEvent → TerminalStatus
  | .error _ _ => .failed
  | _ => .completed

section

variable {last : TerminalStatus} {before : List CodexEvent} {event : CodexEvent}

theorem statusOf_append (hbefore : ∀ earlier ∈ before, isEnd earlier = false)
    (later : List CodexEvent) : statusOf last (before ++ later) = statusOf last later := by
  induction before with
  | nil => rfl
  | cons first rest ih =>
      have hrest := ih fun earlier hmem => hbefore earlier (List.mem_cons_of_mem _ hmem)
      have hfirst := hbefore first List.mem_cons_self
      cases first with
      | token | toolCall | toolResult => exact hrest
      | done | error => cases hfirst

theorem statusOf_end (hend : isEnd event = true)
    (hbefore : ∀ earlier ∈ before, isEnd earlier = false) :
    statusOf last (before ++ [event]) = endStatus event := by
  rw [statusOf_append hbefore]
  cases event with
  | token | toolCall | toolResult => cases hend
  | done | error => rfl

theorem statusOf_open (hbefore : ∀ earlier ∈ before, isEnd earlier = false) :
    statusOf last before = statusOf last [] := by
  rw [← statusOf_append hbefore [], List.append_nil]

/-- Without a last event the end of the client decides. -/
theorem status_open {ending : Except Exn Unit} (hbefore : ∀ earlier ∈ before, isEnd earlier = false) :
    webStatus ending before = webStatus ending [] ∧
      telegramStatus ending before = telegramStatus ending [] :=
  ⟨statusOf_open hbefore, statusOf_open hbefore⟩

end

/-- The status that goes with the end event. -/
theorem endStatus_eq {python : Python} {note : Notification} {accumulated : String}
    {event : CodexEvent} (hevent : translateNotification python note accumulated = .ok (some event))
    (hend : isEnd event = true) :
    (endStatus event).1 = if notesFailure note then .failed else .completed := by
  rw [translate_end python (translate_isEnd hevent hend)] at hevent
  cases hcompleted : onTurnCompleted note.params accumulated with
  | error error => simp [hcompleted, Except.map] at hevent
  | ok last =>
      have hsame : last = event := by simpa [hcompleted, Except.map] using hevent
      subst hsame
      rcases onTurnCompleted_failure hcompleted with ⟨text, rfl, hnone⟩ | ⟨code, detail, rfl, hsome⟩
      · rw [hnone]
        rfl
      · rw [hsome]
        rfl

/-- Surfaces that agree with each other are right when they are right about the closing note. -/
theorem agree_of_closing {exit : Exit} (hended : session.exit? = some exit)
    (hraised : ∀ error, exit ≠ .raised error) {status : TerminalStatus}
    (hstatus : ∀ note ∈ closing? session, status.1 = notedOutcome exit note) :
    Agree session status status ↔ faithful session = true := by
  have hreported : codexStatus session = (closing? session).bind notedStatus := by
    cases exit with
    | raised error => exact absurd rfl (hraised error)
    | _ => simp [codexStatus, hended]
  have hfaithful : faithful session = (closing? session).all fun note =>
      (mapCodexTurnStatus (notedStatus note)).all fun status => status = notedOutcome exit note := by
    cases exit with
    | raised error => exact absurd rfl (hraised error)
    | _ => simp [faithful, hended]
  rw [Agree, and_iff_right rfl, hreported, hfaithful]
  cases hclosing : closing? session with
  | none =>
      refine iff_of_true (fun status h => ?_) rfl
      cases h
  | some note =>
      rw [hstatus note hclosing, Option.bind_some, Option.all_some]
      cases mapCodexTurnStatus (notedStatus note) with
      | none => exact iff_of_true nofun rfl
      | some reported =>
          rw [Option.all_some, decide_eq_true_iff]
          exact ⟨fun h => (h reported rfl).symm, fun h other hother =>
            (Option.some.inj hother ▸ h).symm⟩

/-- A turn that has ended with an event has the outcome of that event. -/
theorem agree_finished (htold : Told options session) (hended : session.exit? = some .finished)
    (web telegram : TerminalStatus) :
    Agree session (statusOf web session.events) (statusOf telegram session.events) ↔
      faithful session = true := by
  obtain ⟨event, hend, ⟨before, hevents, hbefore⟩, notes, note, accumulated, hyielded, hevent⟩ :=
    htold.finished hended
  have hclosing : closing? session = some note := by
    simp only [closing?, hended, hyielded, List.getLast?_append_of_ne_nil _ (List.cons_ne_nil _ _)]
    simp [translate_isEnd hevent hend]
  rw [hevents, statusOf_end hend hbefore, statusOf_end hend hbefore]
  refine agree_of_closing hended nofun fun closing hmem => ?_
  obtain rfl : note = closing := Option.some.inj (hclosing.symm.trans hmem)
  exact endStatus_eq hevent hend

/-- What a turn raises is a status that the probe has reported. -/
theorem agree_raised (htold : Told options session) {error : Exn}
    (hended : session.exit? = some (.raised error)) :
    Agree session (webStatus (.error error) session.events)
        (telegramStatus (.error error) session.events) ↔ faithful session = true := by
  obtain ⟨mapped, raw, rfl, hmapped, hterminal⟩ := htold.raised error hended
  have hbefore := htold.running (by simp [hended])
  have hreported : codexStatus session = some raw := by simp [codexStatus, hended]
  have hfaithful : faithful session = true ↔ raw ≠ "interrupted" := by simp [faithful, hended]
  rw [(status_open hbefore).1, (status_open hbefore).2, hfaithful, Agree, hreported, hmapped]
  rcases mapCodexTurnStatus_cases hmapped with
    ⟨hraw, rfl⟩ | ⟨hraw, rfl⟩ | ⟨hraw, rfl⟩ | ⟨hraw, rfl⟩ <;> cases hraw
  · cases hterminal
  · exact iff_of_true ⟨rfl, fun _ h => Option.some.inj h⟩ (by decide)
  · exact iff_of_false (fun h => absurd h.1 (by decide)) (by simp)
  · exact iff_of_true ⟨rfl, fun _ h => Option.some.inj h⟩ (by decide)

/-- Without an event or a status both surfaces take the turn for a failure, also when there was a
notification of the end that could not be translated. -/
theorem agree_failed (htold : Told options session) {exit : Exit}
    (hended : session.exit? = some exit) (hfinished : exit ≠ .finished)
    (hraised : ∀ error, exit ≠ .raised error) :
    Agree session (webStatus (endingOf exit) session.events)
        (telegramStatus (endingOf exit) session.events) ↔ faithful session = true := by
  have hbefore := htold.running (by simpa [hended] using hfinished)
  rw [(status_open hbefore).1, (status_open hbefore).2]
  cases exit with
  | finished => exact absurd rfl hfinished
  | raised error => exact absurd rfl (hraised error)
  | malformed error => exact agree_of_closing hended hraised fun _ _ => rfl
  | returned | timeoutError | staleTurnStream =>
      exact agree_of_closing hended hraised fun note hmem => by simp [closing?, hended] at hmem

theorem agree_iff (htold : Told options session) {exit : Exit}
    (hended : session.exit? = some exit) :
    Agree session (webStatus (endingOf exit) session.events)
        (telegramStatus (endingOf exit) session.events) ↔ faithful session = true := by
  cases exit with
  | finished => exact agree_finished htold hended _ _
  | raised error => exact agree_raised htold hended
  | returned | timeoutError | staleTurnStream | malformed =>
      exact agree_failed htold hended nofun nofun

theorem natural_endingOf (htold : Told options session) {exit : Exit}
    (hended : session.exit? = some exit) : Natural (endingOf exit) := by
  cases exit with
  | raised error =>
      obtain ⟨mapped, raw, rfl, -, hterminal⟩ := htold.raised error hended
      exact hterminal
  | returned | finished | timeoutError | staleTurnStream | malformed => trivial

variable {cfg : ExecConfig} {turn : TurnRow} {context : Telegram.TurnContext}
  {store : MessageDraft → AssistantMessage} {Allowed : Session → Input → Prop}
  {queue : List (Option Notification)} {turnStartedAt now : ℚ}
  {webMoves telegramMoves : List ExecMove} {webLast : Except Exn Unit × ExecLocals}
  {telegramLast : Except Exn Unit × Telegram.TurnLocals}

/-- **Web and Telegram agree.** Each surface asks for one outcome, and the two are the same and what
Codex has reported, just when no interruption is reported and the notification of the end neither
contradicts itself nor fails to be translated. -/
theorem outcomes_agree
    (hreach : Reach (hear options) Allowed (.start options queue turnStartedAt now) session)
    {exit : Exit} (hended : session.exit? = some exit)
    (hweb : Runs (executeOver cfg turn
      (Async.generator (streamFrom cfg turn (clientFor session exit)) {}) {}) webMoves webLast)
    (hwebCalm : webMoves.all (calm store) = true)
    (htelegram : Runs (Telegram.runLocked context (clientFor session exit) {}) telegramMoves
      telegramLast)
    (htelegramCalm : telegramMoves.all (calm store) = true) :
    ∃ web telegram, finals webMoves = [web] ∧ finals telegramMoves = [telegram] ∧
      (Agree session web telegram ↔ faithful session = true) := by
  have hstart : Told options (.start options queue turnStartedAt now) := ⟨nofun, nofun, nofun⟩
  have htold : Told options session :=
    hreach.invariant (Told options) hstart fun _ _ _ h _ hstep => hear_told h hstep
  have hnatural : Natural (endingOf exit) := natural_endingOf htold hended
  have hending : endingOf exit ≠ .error (.fault .cancelled) := by
    intro hcancelled
    rw [hcancelled] at hnatural
    exact hnatural
  exact ⟨_, _, executeOver_finals hending hweb hwebCalm,
    runLocked_finals hnatural htelegram htelegramCalm, agree_iff htold hended⟩

/-! ### Two turns -/

def servedTurn : TurnRow := .starting 1 ⟨1, 1, 1, .admin⟩ 0

def webRun (session : Session) (exit : Exit) : List ExecMove × Except Exn Unit × ExecLocals :=
  (executeOver Coalescing.plainConfig servedTurn (Async.generator
    (streamFrom Coalescing.plainConfig servedTurn (clientFor session exit)) {}) {}).exec wellAnswered

def telegramRun (session : Session) (exit : Exit) :
    List ExecMove × Except Exn Unit × Telegram.TurnLocals :=
  (Telegram.runLocked ⟨1, 1, false, 180, "thread-1", "turn-1"⟩ (clientFor session exit) {}).exec
    wellAnswered

/-- The turn has ended, nothing fails on either surface, and these are the outcomes. -/
def endsWith (web telegram : TerminalStatus) (session : Session) : Bool :=
  session.exit?.any fun exit =>
    (webRun session exit).1.all (calm storedMessage) &&
    (telegramRun session exit).1.all (calm storedMessage) &&
    decide (finals (webRun session exit).1 = [web]) &&
    decide (finals (telegramRun session exit).1 = [telegram])

/-- `turn/completed` with a status. -/
def anEndWith (status : String) : Notification :=
  ⟨CodexNotif.turnCompleted, [("turnId", .string "turn-1"),
    ("turn", .object [("status", .string status)])]⟩

/-- A turn that Codex reports as completed. -/
theorem outcomes_agree_completed :
    ∃ session, run (hear threeMinutes) (.start threeMinutes [some (anEndWith "completed")] 0 0)
        [.own .resume, .own .resume] = some session ∧
      ∃ web telegram, Agree session web telegram := by
  have hruns : (run (hear threeMinutes)
      (.start threeMinutes [some (anEndWith "completed")] 0 0) [.own .resume, .own .resume]).any
        (fun session => decide (session.exit? = some .finished) && faithful session &&
          (webRun session .finished).1.all (calm storedMessage) &&
          (telegramRun session .finished).1.all (calm storedMessage)) = true := by
    decide +kernel
  obtain ⟨session, hrun, hsession⟩ := (Option.any_eq_true _ _).mp hruns
  simp only [Bool.and_eq_true, decide_eq_true_eq] at hsession
  obtain ⟨⟨⟨hended, hfaithful⟩, hweb⟩, htelegram⟩ := hsession
  obtain ⟨web, telegram, -, -, hagree⟩ := outcomes_agree (reach_of_run_all hrun) hended
    (Program.runs_exec wellAnswered _) hweb (Program.runs_exec wellAnswered _) htelegram
  exact ⟨session, hrun, web, telegram, hagree.mpr hfaithful⟩

/-- Codex reports an interruption. Answered to a probe it is a failure on the web and a cancellation
on Telegram, and in a notification it is a completion on both. -/
theorem outcomes_disagree :
    (run (hear threeMinutes) (.start threeMinutes [] 0 0)
        [.own .resume, .own (.elapse 180), .own .timeOut, .probe (some "interrupted")]).any
      (endsWith .failed .cancelled) = true ∧
    (run (hear threeMinutes) (.start threeMinutes [some (anEndWith "interrupted")] 0 0)
        [.own .resume, .own .resume]).any (endsWith .completed .completed) = true ∧
    mapCodexTurnStatus (some "interrupted") = some .cancelled := by
  decide +kernel

end CodexServer.Outcome
