import Mathlib.Data.List.ReduceOption
import Mathlib.Tactic.Linarith
import CodexServer.CodexTurn

/-!
# What a turn takes from the queue, and what it makes of it

Each step of a turn either leaves the notifications alone, adds one to the queue, or takes the first
one from it. What the turn yields is therefore what its filters let through of what it has taken, and
its events are a function of what it has yielded.
-/

namespace CodexServer.CodexTurn

open Transition

section

variable {options : Options} {session next : Session}

/-! ### The ledger of a turn -/

/-- What a turn has done with its notifications. -/
structure Ledger where
  queue : List (Option Notification)
  arrived : List (Option Notification)
  taken : List (Option Notification)
  yielded : List Notification
  events : List CodexEvent
  accumulated : String

namespace Session

def ledger (session : Session) : Ledger where
  queue := session.queue
  arrived := session.arrived
  taken := session.taken
  yielded := session.yielded
  events := session.events
  accumulated := session.accumulated

@[simp] theorem extendIdleDeadline_ledger :
    (session.extendIdleDeadline options).ledger = session.ledger := by
  unfold extendIdleDeadline
  split <;> rfl

@[simp] theorem extendIdleDeadline_point :
    (session.extendIdleDeadline options).point = session.point := by
  unfold extendIdleDeadline
  split <;> rfl

@[simp] theorem extendIdleDeadline_exhausted :
    (session.extendIdleDeadline options).exhausted = session.exhausted := by
  unfold extendIdleDeadline
  split <;> rfl

@[simp] theorem handleIdle_ledger : (session.handleIdle options).ledger = session.ledger := by
  unfold handleIdle
  split
  · rfl
  · split <;> rfl
  · exact extendIdleDeadline_ledger

@[simp] theorem handleIdle_exhausted :
    (session.handleIdle options).exhausted = session.exhausted := by
  unfold handleIdle
  split
  · rfl
  · split <;> rfl
  · exact extendIdleDeadline_exhausted

@[simp] theorem recordStale_ledger : (session.recordStale options).ledger = session.ledger := by
  unfold recordStale
  simp only
  split <;> rfl

end Session

/-! ### What a note becomes -/

/-- The end of a turn is a done or an error event. -/
theorem onTurnCompleted_cases {params : List (String × Json)} {accumulated : String}
    {event : CodexEvent} (h : onTurnCompleted params accumulated = .ok event) :
    (∃ text, event = .done text) ∨ ∃ code detail, event = .error code detail := by
  unfold onTurnCompleted at h
  simp only [bind, Except.bind, pure, Except.pure] at h
  split at h
  · cases h
  · split at h
    · -- the turn has an error
      split at h
      · cases h
      · split at h
        · cases h
          exact .inr ⟨_, _, rfl⟩
        · split at h <;> cases h
          exact .inr ⟨_, _, rfl⟩
    · split at h
      · cases h
      · split at h
        · cases h
          exact .inr ⟨_, _, rfl⟩
        · -- it has neither an error nor failed
          split at h
          · cases h
            exact .inl ⟨_, rfl⟩
          · split at h <;> cases h
            exact .inl ⟨_, rfl⟩

/-- The events and the text after one more note. -/
def absorb (python : Python) (sofar : List CodexEvent × String) (note : Notification) :
    List CodexEvent × String :=
  match translateNotification python note sofar.2 with
  | .error _ | .ok none => sofar
  | .ok (some (.token delta)) => (sofar.1 ++ [.token delta], sofar.2 ++ delta)
  | .ok (some event) => (sofar.1 ++ [event], sofar.2)

/-- The events of a turn that has yielded `notes`, and its text. -/
def transcript (python : Python) (notes : List Notification) : List CodexEvent × String :=
  notes.foldl (absorb python) ([], "")

theorem transcript_append (python : Python) (notes : List Notification) (note : Notification) :
    transcript python (notes ++ [note]) = absorb python (transcript python notes) note := by
  simp [transcript]

/-- The ledger after a note that is let through. -/
def Ledger.yield (python : Python) (note : Notification) (ledger : Ledger) : Ledger :=
  { ledger with
    yielded := ledger.yielded ++ [note]
    events := (absorb python (ledger.events, ledger.accumulated) note).1
    accumulated := (absorb python (ledger.events, ledger.accumulated) note).2 }

namespace Session

theorem translate_ledger (note : Notification) :
    (session.translate options note).ledger = session.ledger.yield options.python note := by
  unfold translate Ledger.yield absorb ledger
  cases htranslate : translateNotification options.python note session.accumulated with
  | error error => simp [endWith]
  | ok event =>
      cases event with
      | none => rfl
      | some event => cases event <;> simp [endWith]

theorem translate_exit {note : Notification} {exit : Exit}
    (h : (session.translate options note).exit? = some exit) :
    exit = .finished ∨ ∃ error, exit = .malformed error := by
  unfold translate at h
  cases htranslate : translateNotification options.python note session.accumulated with
  | error error =>
      simp only [htranslate, exit?, endWith, Option.some.injEq] at h
      exact .inr ⟨error, h.symm⟩
  | ok event =>
      cases event with
      | none => simp [htranslate, exit?] at h
      | some event =>
          left
          cases event <;> simp [htranslate, exit?, endWith] at h <;> exact h.symm

theorem handle_ledger (note : Notification) :
    (session.handle options note).ledger =
      if note.passes options.turnId then session.ledger.yield options.python note
      else session.ledger := by
  unfold handle
  cases haccount : note.isAccount with
  | true => simp [Notification.passes, haccount, ledger]
  | false =>
      cases hstale : note.isStale options.turnId with
      | true => simp [Notification.passes, haccount, hstale]
      | false =>
          cases hnoise : note.isSessionNoise with
          | true => simp [Notification.passes, haccount, hstale, hnoise, ledger]
          | false =>
              simp [Notification.passes, haccount, hstale, hnoise, translate_ledger]

theorem translate_exhausted (note : Notification) :
    (session.translate options note).exhausted = session.exhausted := by
  unfold translate
  cases translateNotification options.python note session.accumulated with
  | error error => rfl
  | ok event =>
      cases event with
      | none => rfl
      | some event => cases event <;> rfl

theorem handle_exhausted (note : Notification) :
    (session.handle options note).exhausted = session.exhausted := by
  unfold handle
  split
  · rfl
  · split
    · unfold recordStale
      simp only
      split <;> rfl
    · split
      · rfl
      · exact (translate_exhausted note).trans extendIdleDeadline_exhausted

/-- A note ends the turn when it is one too many of another turn, or when it is let through. -/
theorem handle_exit {note : Notification} {exit : Exit}
    (h : (session.handle options note).exit? = some exit) :
    (exit = .staleTurnStream ∧ note.isStale options.turnId = true ∧
      session.diagnostics.rawCount = 0 ∧
      options.stormThreshold ≤ session.diagnostics.staleRawCount + 1) ∨
    (note.passes options.turnId = true ∧
      (exit = .finished ∨ ∃ error, exit = .malformed error)) := by
  unfold handle at h
  cases haccount : note.isAccount with
  | true => cases hawaits : accountAwaits options note <;> simp [haccount, hawaits, exit?] at h
  | false =>
      cases hstale : note.isStale options.turnId with
      | true =>
          simp only [haccount, hstale, Bool.false_eq_true, if_false, if_true] at h
          by_cases hstorm : session.diagnostics.rawCount = 0 ∧
              options.stormThreshold ≤ session.diagnostics.staleRawCount + 1
          · have hexit : some Exit.staleTurnStream = some exit := by
              simpa [recordStale, Diagnostics.absorbStaleRaw, hstorm, exit?, endWith] using h
            exact .inl ⟨(Option.some.inj hexit).symm, rfl, hstorm⟩
          · simp [recordStale, Diagnostics.absorbStaleRaw, hstorm, exit?] at h
      | false =>
          cases hnoise : note.isSessionNoise with
          | true => simp [haccount, hstale, hnoise, exit?] at h
          | false =>
              simp only [haccount, hstale, hnoise, Bool.false_eq_true, if_false] at h
              exact .inr ⟨by simp [Notification.passes, haccount, hstale, hnoise],
                translate_exit h⟩

/-- The state in which the body of the loop handles a note. -/
def takes (note : Notification) (rest : List (Option Notification)) (session : Session) : Session :=
  { session with queue := rest, taken := session.taken ++ [some note] }

/-- The check before the wait finds that the deadline has come. -/
def idleDue (session : Session) : Bool :=
  session.point = .checking && session.idleDeadline.any fun deadline => deadline ≤ session.clock

/-- The turn is over without having taken anything. -/
def Lapses (options : Options) (session : Session) : Action → Prop
  | .resume => session.idleDue = true ∧
      (options.hardCapS ≤ session.clock - session.turnStartedAt ∨ options.hasOnIdle = false)
  | .timeOut =>
      options.hardCapS ≤ session.clock - session.turnStartedAt ∨ options.hasOnIdle = false
  | .answerIdle _ answer => answer = false
  | _ => False

/-- What a step of a turn can do. -/
inductive Moves (options : Options) (session : Session) : Action → Session → Prop
  | arrive (entry : Option Notification) :
      Moves options session (.arrive entry) { session with
        queue := session.queue ++ [entry], arrived := session.arrived ++ [entry] }
  /-- Nothing is taken, and the turn goes on. -/
  | quiet {action : Action} {next : Session} (hledger : next.ledger = session.ledger)
      (hexit : next.exit? = session.exit?)
      (hexhausted : next.exhausted = true → session.exhausted = true ∨ action = .timeOut) :
      Moves options session action next
  | lapse {action : Action} {next : Session} (hlapses : Lapses options session action)
      (hledger : next.ledger = session.ledger) (hexit : next.exit? = some .timeoutError)
      (hexhausted : next.exhausted = true → session.exhausted = true ∨ action = .timeOut) :
      Moves options session action next
  | raised (error : Exn) : Moves options session (.raise error) (session.endWith (.raised error))
  | exhausted (hexhausted : session.exhausted = true) :
      Moves options session .resume (session.endWith .returned)
  | sentinel {timer : Option ℚ} {rest : List (Option Notification)}
      (hpoint : session.point = .waiting timer) (hqueue : session.queue = none :: rest) :
      Moves options session .resume ({ session with
        queue := rest, taken := session.taken ++ [none], exhausted := true }.endWith .returned)
  | took {timer : Option ℚ} {note : Notification} {rest : List (Option Notification)}
      (hpoint : session.point = .waiting timer) (hopen : session.exhausted = false)
      (hqueue : session.queue = some note :: rest) :
      Moves options session .resume ((session.takes note rest).handle options note)

theorem decideIdle_hardCap {now turnStartedAt hardCapS probeIntervalS : ℚ} {active : Bool}
    {probed : Option ℚ} (h : decideIdle now turnStartedAt active probed hardCapS probeIntervalS =
      .hardCapExceeded) : hardCapS ≤ now - turnStartedAt := by
  unfold decideIdle at h
  split at h
  · assumption
  · split at h
    · cases h
    · split at h
      · cases h
      · split at h <;> cases h

/-- The idle check fails at the hard cap or for want of a callback, and else the turn goes on. -/
theorem handleIdle_exit :
    ((session.handleIdle options).exit? = some .timeoutError ∧
      (options.hardCapS ≤ session.clock - session.turnStartedAt ∨ options.hasOnIdle = false)) ∨
    (session.handleIdle options).exit? = none := by
  unfold handleIdle
  split
  · rename_i hcap
    exact .inl ⟨rfl, .inl (decideIdle_hardCap hcap)⟩
  · cases hcallback : options.hasOnIdle with
    | false => exact .inl ⟨rfl, .inr rfl⟩
    | true => exact .inr rfl
  · exact .inr rfl

theorem handleIdle_moves {action : Action} {before : Session} (hopen : session.exit? = none)
    (hbefore : before = session ∧ action = .resume ∧ session.idleDue = true ∨
      before = { session with exhausted := true } ∧ action = .timeOut) :
    Moves options session action (before.handleIdle options) := by
  have hledger : (before.handleIdle options).ledger = session.ledger := by
    rcases hbefore with ⟨rfl, -⟩ | ⟨rfl, -⟩ <;> exact handleIdle_ledger
  have hexhausted : (before.handleIdle options).exhausted = true →
      session.exhausted = true ∨ action = .timeOut := by
    rw [handleIdle_exhausted]
    rcases hbefore with ⟨rfl, rfl, -⟩ | ⟨rfl, rfl⟩
    · exact .inl
    · exact fun _ => .inr rfl
  rcases @handleIdle_exit options before with ⟨hended, hwhy⟩ | hgoes
  · refine .lapse ?_ hledger hended hexhausted
    rcases hbefore with ⟨rfl, rfl, hdue⟩ | ⟨rfl, rfl⟩
    · exact ⟨hdue, hwhy⟩
    · exact hwhy
  · exact .quiet hledger (hgoes.trans hopen.symm) hexhausted

theorem next_moves {timer : Option ℚ} (hpoint : session.point = .waiting timer)
    (h : session.next options = some next) : Moves options session .resume next := by
  unfold Session.next at h
  split at h
  · rename_i hexhausted
    cases h
    exact .exhausted hexhausted
  · rename_i hopen
    split at h
    · cases h
    · rename_i hqueue
      cases h
      exact .sentinel hpoint hqueue
    · rename_i hqueue
      cases h
      exact .took hpoint (Bool.eq_false_iff.mpr hopen) hqueue

theorem resume_moves (h : session.resume options = some next) :
    Moves options session .resume next := by
  unfold Session.resume at h
  split at h
  · rename_i hpoint
    have hopen : session.exit? = none := by simp [exit?, hpoint]
    split at h
    · cases h
      exact .quiet rfl hopen.symm .inl
    · rename_i hdeadline
      split at h
      · rename_i hpassed
        cases h
        have hdue : session.idleDue = true := by
          simpa [idleDue, hpoint, hdeadline] using hpassed
        exact handleIdle_moves hopen (.inl ⟨rfl, rfl, hdue⟩)
      · cases h
        exact .quiet rfl hopen.symm .inl
  · rename_i hpoint
    exact next_moves hpoint h
  · cases h
  · cases h
  · cases h

theorem timeOut_moves {timer : ℚ} (hpoint : session.point = .waiting (some timer))
    (h : session.timeOut options timer = some next) : Moves options session .timeOut next := by
  have hopen : session.exit? = none := by simp [exit?, hpoint]
  unfold Session.timeOut at h
  split at h
  · simp only at h
    split at h
    · cases h
      exact .quiet rfl hopen.symm fun _ => .inr rfl
    · cases h
      exact handleIdle_moves hopen (.inr ⟨rfl, rfl⟩)
  · cases h

end Session

/-- **The inversion of a step.** -/
theorem step_moves {action : Action} (h : step options session action = some next) :
    Session.Moves options session action next := by
  cases action with
  | arrive entry =>
      cases h
      exact .arrive entry
  | elapse duration =>
      simp only [step] at h
      split at h
      · cases h
        exact .quiet rfl rfl .inl
      · cases h
  | resume => exact Session.resume_moves h
  | timeOut =>
      simp only [step] at h
      split at h
      · rename_i hpoint
        exact Session.timeOut_moves hpoint h
      · cases h
  | answerIdle moves answer =>
      simp only [step] at h
      split at h
      · rename_i hpoint
        have hopen : session.exit? = none := by simp [Session.exit?, hpoint]
        cases moves <;> cases answer <;> cases h
        · exact .lapse rfl rfl rfl .inl
        · exact .quiet rfl hopen.symm .inl
        · exact .lapse rfl Session.extendIdleDeadline_ledger rfl
            fun h => .inl (by simpa [Session.endWith] using h)
        · exact .quiet Session.extendIdleDeadline_ledger hopen.symm fun h => .inl (by simpa using h)
      · cases h
  | answerAccount =>
      simp only [step] at h
      split at h
      · rename_i hpoint
        cases h
        exact .quiet rfl (by simp [Session.exit?, hpoint]) .inl
      · cases h
  | raise error =>
      simp only [step] at h
      split at h
      · cases h
        exact .raised error
      · cases h
  | extend =>
      cases h
      exact .quiet Session.extendIdleDeadline_ledger (by simp [Session.exit?])
        fun h => .inl (by simpa using h)

/-! ### The filter and the translation -/

/-- What has arrived has been taken or is queued, what the filters let through of what was taken has
been yielded, and it has become the events. -/
structure Ledger.Kept (options : Options) (ledger : Ledger) : Prop where
  queued : ledger.arrived = ledger.taken ++ ledger.queue
  filtered : ledger.yielded = ledger.taken.reduceOption.filter (·.passes options.turnId)
  translated : (ledger.events, ledger.accumulated) = transcript options.python ledger.yielded

theorem Ledger.Kept.took {ledger : Ledger} (h : ledger.Kept options) {note : Notification}
    {rest : List (Option Notification)} (hqueue : ledger.queue = some note :: rest) :
    (if note.passes options.turnId then
      { ledger with queue := rest, taken := ledger.taken ++ [some note] }.yield options.python note
    else { ledger with queue := rest, taken := ledger.taken ++ [some note] }).Kept options := by
  have hqueued : ledger.arrived = (ledger.taken ++ [some note]) ++ rest := by
    simpa [hqueue] using h.queued
  cases hpasses : note.passes options.turnId with
  | true =>
      refine ⟨hqueued, ?_, ?_⟩
      · simp [Ledger.yield, h.filtered, List.reduceOption_append, hpasses]
      · simp [Ledger.yield, transcript_append, h.translated]
  | false =>
      refine ⟨hqueued, ?_, h.translated⟩
      simp [h.filtered, List.reduceOption_append, hpasses]

theorem Session.Moves.kept {action : Action} (hmoves : Session.Moves options session action next)
    (h : session.ledger.Kept options) : next.ledger.Kept options := by
  cases hmoves with
  | arrive entry =>
      refine ⟨?_, h.filtered, h.translated⟩
      have hqueued : session.arrived = session.taken ++ session.queue := h.queued
      simp [Session.ledger, hqueued]
  | quiet hledger => exact hledger ▸ h
  | lapse _ hledger => exact hledger ▸ h
  | raised error => exact h
  | exhausted => exact h
  | sentinel _ hqueue =>
      have hqueued : session.arrived = session.taken ++ session.queue := h.queued
      refine ⟨?_, ?_, h.translated⟩
      · simp [Session.ledger, Session.endWith, hqueued, hqueue]
      · have hfiltered := h.filtered
        simpa [Session.ledger, Session.endWith, List.reduceOption_append] using hfiltered
  | took _ _ hqueue =>
      rw [Session.handle_ledger]
      exact h.took hqueue

theorem Session.start_kept (queue : List (Option Notification)) (turnStartedAt now : ℚ) :
    (Session.start options queue turnStartedAt now).ledger.Kept options :=
  ⟨rfl, rfl, rfl⟩

/-- **The run lemma of the ledger.** -/
theorem kept_of_reach {Allowed : Session → Action → Prop} {start : Session}
    (hstart : start.ledger.Kept options) (hreach : Reach (step options) Allowed start session) :
    session.ledger.Kept options :=
  hreach.invariant (fun session => session.ledger.Kept options) hstart
    fun _ _ _ h _ hstep => (step_moves hstep).kept h

/-! ### The clocks of a turn -/

/-- The clocks stand still; a turn without an idle time has no deadline. -/
structure Session.Stays (options : Options) (session next : Session) : Prop where
  clock : next.clock = session.clock
  started : next.turnStartedAt = session.turnStartedAt
  untimed : options.idleS = none → session.idleDeadline = none → next.idleDeadline = none

namespace Session

theorem Stays.refl (session : Session) : Stays options session session := ⟨rfl, rfl, fun _ h => h⟩

theorem Stays.trans {middle : Session} (h : Stays options session middle)
    (h' : Stays options middle next) : Stays options session next :=
  ⟨h'.clock.trans h.clock, h'.started.trans h.started,
    fun hnone hdeadline => h'.untimed hnone (h.untimed hnone hdeadline)⟩

theorem extend_stays : Stays options session (session.extendIdleDeadline options) := by
  unfold extendIdleDeadline
  cases hidle : options.idleS with
  | none => exact .refl session
  | some idle => exact ⟨rfl, rfl, fun hnone => by simp [hidle] at hnone⟩

theorem handleIdle_stays : Stays options session (session.handleIdle options) := by
  have hextend := @extend_stays options session
  unfold handleIdle
  split
  · exact ⟨rfl, rfl, fun _ h => h⟩
  · split <;> exact ⟨rfl, rfl, fun _ h => h⟩
  · exact ⟨hextend.clock, hextend.started, hextend.untimed⟩

theorem translate_stays (note : Notification) :
    Stays options session (session.translate options note) := by
  unfold translate
  cases translateNotification options.python note session.accumulated with
  | error error => exact ⟨rfl, rfl, fun _ h => h⟩
  | ok event =>
      cases event with
      | none => exact ⟨rfl, rfl, fun _ h => h⟩
      | some event => cases event <;> exact ⟨rfl, rfl, fun _ h => h⟩

theorem handle_stays (note : Notification) :
    Stays options session (session.handle options note) := by
  unfold handle
  split
  · exact ⟨rfl, rfl, fun _ h => h⟩
  · split
    · unfold recordStale
      simp only
      split <;> exact ⟨rfl, rfl, fun _ h => h⟩
    · split
      · exact ⟨rfl, rfl, fun _ h => h⟩
      · exact extend_stays.trans (translate_stays note)

theorem resume_stays (h : session.resume options = some next) : Stays options session next := by
  unfold Session.resume at h
  split at h
  · split at h
    · cases h
      exact ⟨rfl, rfl, fun _ h => h⟩
    · split at h
      · cases h
        exact handleIdle_stays
      · cases h
        exact ⟨rfl, rfl, fun _ h => h⟩
  · unfold Session.next at h
    split at h
    · cases h
      exact ⟨rfl, rfl, fun _ h => h⟩
    · split at h <;> cases h
      · exact ⟨rfl, rfl, fun _ h => h⟩
      · have htakes : ∀ note rest, Stays options session (session.takes note rest) :=
          fun _ _ => ⟨rfl, rfl, fun _ h => h⟩
        exact (htakes _ _).trans (handle_stays _)
  · cases h
  · cases h
  · cases h

theorem step_untimed {action : Action} (hidle : options.idleS = none)
    (h : session.idleDeadline = none) (hstep : step options session action = some next) :
    next.idleDeadline = none := by
  have hextend : (session.extendIdleDeadline options).idleDeadline = none := extend_stays.untimed hidle h
  cases action with
  | arrive entry =>
      cases hstep
      exact h
  | elapse duration =>
      simp only [step] at hstep
      split at hstep <;> cases hstep
      exact h
  | resume => exact (resume_stays hstep).untimed hidle h
  | timeOut =>
      simp only [step] at hstep
      split at hstep
      · unfold timeOut at hstep
        split at hstep
        · simp only at hstep
          split at hstep <;> cases hstep
          · exact h
          · exact handleIdle_stays.untimed hidle h
        · cases hstep
      · cases hstep
  | answerIdle moves answer =>
      simp only [step] at hstep
      split at hstep
      · cases moves <;> cases answer <;> cases hstep <;> first | exact h | exact hextend
      · cases hstep
  | answerAccount =>
      simp only [step] at hstep
      split at hstep <;> cases hstep
      exact h
  | raise error =>
      simp only [step] at hstep
      split at hstep <;> cases hstep
      exact h
  | extend =>
      cases hstep
      exact hextend

end Session

/-! ### A turn takes what is in its queue -/

/-- What the turn does by itself, with callbacks that answer and extend. -/
def Action.own : Action → Bool
  | .resume | .answerIdle true true | .answerAccount => true
  | _ => false

/-- The turn's own steps, which take no time. -/
def Prompt (start session : Session) (action : Action) : Prop :=
  action.own = true ∧ session.clock = start.clock ∧ session.turnStartedAt = start.turnStartedAt

namespace Session

/-- A prompt run that has left the ledger alone. -/
structure Reaches (options : Options) (session next : Session) : Prop where
  reach : Reach (step options) (Prompt session) session next
  ledger : next.ledger = session.ledger
  stays : Stays options session next

theorem Reaches.refl : Reaches options session session := ⟨.refl, rfl, .refl session⟩

theorem Reaches.tail {middle : Session} (h : Reaches options session middle) {action : Action}
    (hown : action.own = true) (hstep : step options middle action = some next)
    (hledger : next.ledger = middle.ledger) (hstays : Stays options middle next) :
    Reaches options session next :=
  ⟨.tail action h.reach ⟨hown, h.stays.clock, h.stays.started⟩ hstep, hledger.trans h.ledger,
    h.stays.trans hstays⟩

/-- The turn is over or in its wait. -/
def AtWait (session : Session) : Prop :=
  session.exit?.isSome = true ∨ ∃ timer, session.point = .waiting timer

/-- A check before the deadline leads to the wait. -/
theorem resume_of_ahead (hpoint : session.point = .checking)
    (hahead : ∀ deadline ∈ session.idleDeadline, session.clock < deadline) :
    step options session .resume = some { session with point := .waiting session.idleDeadline } := by
  cases hdeadline : session.idleDeadline with
  | none => simp [step, Session.resume, hpoint, hdeadline]
  | some deadline =>
      have hlt := hahead deadline hdeadline
      have hleft : ¬deadline ≤ session.clock := not_le.mpr hlt
      simp [step, Session.resume, hpoint, hdeadline, hleft]

theorem Reaches.ahead {middle : Session} (h : Reaches options session middle)
    (hpoint : middle.point = .checking)
    (hahead : ∀ deadline ∈ middle.idleDeadline, middle.clock < deadline) :
    ∃ next, Reaches options session next ∧ next.AtWait :=
  ⟨_, h.tail rfl (resume_of_ahead hpoint hahead) rfl ⟨rfl, rfl, fun _ h => h⟩, .inr ⟨_, rfl⟩⟩

variable (hpositive : ∀ idle ∈ options.idleS, 0 < idle)

include hpositive in
/-- After an extension the deadline is ahead. -/
theorem extend_ahead (huntimed : options.idleS = none → session.idleDeadline = none) :
    ∀ deadline ∈ (session.extendIdleDeadline options).idleDeadline,
      (session.extendIdleDeadline options).clock < deadline := by
  intro deadline hdeadline
  cases hidle : options.idleS with
  | none => simp [extendIdleDeadline, hidle, huntimed hidle] at hdeadline
  | some idle =>
      have hpos := hpositive idle hidle
      simp only [extendIdleDeadline, hidle, Option.mem_some_iff] at hdeadline ⊢
      linarith

include hpositive in
theorem Reaches.idling {middle : Session} (h : Reaches options session middle)
    (hpoint : middle.point = .idling)
    (huntimed : options.idleS = none → middle.idleDeadline = none) :
    ∃ next, Reaches options session next ∧ next.AtWait := by
  have hextend := @extend_stays options middle
  have hstep : step options middle (.answerIdle true true) =
      some { middle.extendIdleDeadline options with point := .checking } := by
    simp [step, hpoint]
  have hanswered := h.tail rfl hstep extendIdleDeadline_ledger
    ⟨hextend.clock, hextend.started, hextend.untimed⟩
  exact hanswered.ahead rfl (extend_ahead hpositive huntimed)

include hpositive in
theorem Reaches.checking {middle : Session} (h : Reaches options session middle)
    (hpoint : middle.point = .checking)
    (huntimed : options.idleS = none → middle.idleDeadline = none) :
    ∃ next, Reaches options session next ∧ next.AtWait := by
  by_cases hahead : ∀ deadline ∈ middle.idleDeadline, middle.clock < deadline
  · exact h.ahead hpoint hahead
  simp only [not_forall, not_lt] at hahead
  obtain ⟨deadline, hdeadline, hpassed⟩ := hahead
  have hstep : step options middle .resume = some (middle.handleIdle options) := by
    simp [step, Session.resume, hpoint, Option.mem_def.mp hdeadline, hpassed]
  have hidled := h.tail rfl hstep handleIdle_ledger handleIdle_stays
  have huntimed' : options.idleS = none → (middle.handleIdle options).idleDeadline = none :=
    fun hnone => handleIdle_stays.untimed hnone (huntimed hnone)
  -- the check is over, asks the callback, or extends by itself
  unfold handleIdle at hidled huntimed'
  split at hidled <;> rename_i hdecision <;> simp only [hdecision] at huntimed'
  · exact ⟨_, hidled, .inl rfl⟩
  · cases hcallback : options.hasOnIdle with
    | false =>
        simp only [hcallback, Bool.false_eq_true, if_false] at hidled
        exact ⟨_, hidled, .inl rfl⟩
    | true =>
        simp only [hcallback, if_true] at hidled huntimed'
        exact hidled.idling hpositive rfl huntimed'
  · exact hidled.ahead rfl (extend_ahead hpositive huntimed)

include hpositive in
theorem reaches_wait (huntimed : options.idleS = none → session.idleDeadline = none) :
    ∃ next, Reaches options session next ∧ next.AtWait := by
  cases hpoint : session.point with
  | checking => exact Reaches.refl.checking hpositive hpoint huntimed
  | waiting timer => exact ⟨session, .refl, .inr ⟨timer, hpoint⟩⟩
  | idling => exact Reaches.refl.idling hpositive hpoint huntimed
  | accounting =>
      have hstep : step options session .answerAccount =
          some { session with point := .checking } := by
        simp [step, hpoint]
      have hanswered := Reaches.refl.tail rfl hstep rfl ⟨rfl, rfl, fun _ h => h⟩
      exact hanswered.checking hpositive rfl huntimed
  | ended exit => exact ⟨session, .refl, .inl (by simp [exit?, hpoint])⟩

theorem handle_queue (note : Notification) :
    (session.handle options note).queue = session.queue ∧
      (session.handle options note).arrived = session.arrived := by
  have hledger := @handle_ledger options session note
  have hqueue := congrArg Ledger.queue hledger
  have harrived := congrArg Ledger.arrived hledger
  cases hpasses : note.passes options.turnId <;> simp only [hpasses] at hqueue harrived <;>
    exact ⟨hqueue, harrived⟩

theorem handle_taken (note : Notification) :
    (session.handle options note).taken = session.taken := by
  have htaken := congrArg Ledger.taken (@handle_ledger options session note)
  cases hpasses : note.passes options.turnId <;> simp only [hpasses] at htaken <;> exact htaken

/-- In the wait the first entry of the queue is taken. -/
theorem take_of_waiting {timer : Option ℚ} (hpoint : session.point = .waiting timer)
    {entry : Option Notification} {rest : List (Option Notification)}
    (hqueue : session.queue = entry :: rest) :
    ∃ next, step options session .resume = some next ∧ next.arrived = session.arrived ∧
      (next.exit?.isSome = true ∨ next.queue = rest) := by
  have hstep : step options session .resume = session.next options := by
    simp [step, Session.resume, hpoint]
  rw [hstep]
  unfold Session.next
  cases hexhausted : session.exhausted with
  | true => exact ⟨_, rfl, rfl, .inl rfl⟩
  | false =>
      rw [hqueue]
      cases entry with
      | none => exact ⟨_, rfl, rfl, .inl rfl⟩
      | some note =>
          have hhandled := @handle_queue options { session.takes note rest with exhausted := false } note
          exact ⟨_, rfl, hhandled.2, .inr hhandled.1⟩

include hpositive in
/-- **Progress.** The turn's own steps bring it to its end or empty the queue. -/
theorem drains (huntimed : options.idleS = none → session.idleDeadline = none) :
    ∃ next, Reach (step options) (Prompt session) session next ∧
      next.arrived = session.arrived ∧ (next.exit?.isSome = true ∨ next.queue = []) := by
  generalize hentries : session.queue = entries
  induction entries generalizing session with
  | nil => exact ⟨session, .refl, rfl, .inr hentries⟩
  | cons entry rest ih =>
      obtain ⟨middle, hreaches, hended | ⟨timer, hpoint⟩⟩ :=
        @reaches_wait options session hpositive huntimed
      · exact ⟨middle, hreaches.reach, congrArg Ledger.arrived hreaches.ledger, .inl hended⟩
      have hqueue : middle.queue = entry :: rest :=
        (congrArg Ledger.queue hreaches.ledger).trans hentries
      obtain ⟨after, hstep, harrived, htaken⟩ := take_of_waiting hpoint hqueue
      have hstays : Stays options session after := hreaches.stays.trans (resume_stays hstep)
      have hafter : Reach (step options) (Prompt session) session after :=
        .tail .resume hreaches.reach ⟨rfl, hreaches.stays.clock, hreaches.stays.started⟩ hstep
      have harrived' : after.arrived = session.arrived :=
        harrived.trans (congrArg Ledger.arrived hreaches.ledger)
      rcases htaken with hended | hrest
      · exact ⟨after, hafter, harrived', .inl hended⟩
      obtain ⟨last, hlast, hlastArrived, hdone⟩ :=
        ih (fun hnone => hstays.untimed hnone (huntimed hnone)) hrest
      have hprompt : Reach (step options) (Prompt session) after last :=
        hlast.mono fun state action h =>
          ⟨h.1, h.2.1.trans hstays.clock, h.2.2.trans hstays.started⟩
      exact ⟨last, hafter.trans hprompt, hlastArrived.trans harrived', hdone⟩

end Session

end

section

variable {options : Options} {session : Session} {queue : List (Option Notification)}
  {turnStartedAt now : ℚ}

/-! ### Idle handling -/

/-- No wait is cancelled by the idle deadline, and `on_idle` answers each time, before the hard cap,
with an extension. -/
def uncut (options : Options) (session : Session) : Action → Bool
  | .resume =>
      !session.idleDue || decide (session.clock - session.turnStartedAt < options.hardCapS)
  | .timeOut => false
  | .answerIdle moves answer => moves && answer
  | .raise _ => session.point ≠ .idling
  | _ => true

/-- `notifications()` is over only by its sentinel, and the idle handling never gives up. -/
structure Whole (session : Session) : Prop where
  closed : session.exhausted = true → none ∈ session.taken
  returned : session.exit? = some .returned → none ∈ session.taken
  patient : session.exit? ≠ some .timeoutError

theorem Session.Moves.whole {action : Action} {next : Session}
    (hmoves : Session.Moves options session action next) (hcallback : options.hasOnIdle = true)
    (hallowed : uncut options session action = true) (h : Whole session) : Whole next := by
  have hcut : action ≠ .timeOut := by
    rintro rfl
    simp [uncut] at hallowed
  cases hmoves with
  | arrive entry => exact ⟨h.closed, h.returned, h.patient⟩
  | quiet hledger hexit hexhausted =>
      have htaken : next.taken = session.taken := congrArg Ledger.taken hledger
      refine ⟨fun hover => ?_, fun hreturned => ?_, hexit ▸ h.patient⟩
      · exact htaken ▸ h.closed ((hexhausted hover).resolve_right hcut)
      · exact htaken ▸ h.returned (hexit ▸ hreturned)
  | lapse hlapses =>
      exfalso
      cases action with
      | resume =>
          obtain ⟨hdue, hcap | hnone⟩ := hlapses
          · have hearly : session.clock - session.turnStartedAt < options.hardCapS := by
              simpa [uncut, hdue] using hallowed
            exact absurd hcap (not_le.mpr hearly)
          · simp [hcallback] at hnone
      | timeOut => exact hcut rfl
      | answerIdle moves answer =>
          have hanswer : answer = false := hlapses
          simp [uncut, hanswer] at hallowed
      | _ => exact hlapses
  | raised error => exact ⟨h.closed, nofun, nofun⟩
  | exhausted hexhausted => exact ⟨h.closed, fun _ => h.closed hexhausted, nofun⟩
  | sentinel => exact ⟨fun _ => by simp [Session.endWith], fun _ => by simp [Session.endWith], nofun⟩
  | @took _ note rest _ _ hqueue =>
      have htaken := @handle_taken options (session.takes note rest) note
      have hkept : none ∈ session.taken →
          none ∈ ((session.takes note rest).handle options note).taken := by
        intro hmem
        rw [htaken]
        exact List.mem_append_left _ hmem
      refine ⟨fun hover => ?_, fun hreturned => ?_, fun htimeout => ?_⟩
      · rw [handle_exhausted] at hover
        exact hkept (h.closed hover)
      · rcases handle_exit hreturned with ⟨hother, -⟩ | ⟨-, hother | ⟨_, hother⟩⟩ <;> cases hother
      · rcases handle_exit htimeout with ⟨hother, -⟩ | ⟨-, hother | ⟨_, hother⟩⟩ <;> cases hother

theorem whole_of_reach (hcallback : options.hasOnIdle = true)
    (hreach : Reach (step options) (fun session action => uncut options session action = true)
      (.start options queue turnStartedAt now) session) : Whole session :=
  hreach.invariant Whole ⟨nofun, nofun, nofun⟩ fun _ _ _ h hallowed hstep =>
    (step_moves hstep).whole hcallback hallowed h

theorem untimed_of_reach {Allowed : Session → Action → Prop}
    (hreach : Reach (step options) Allowed (.start options queue turnStartedAt now) session)
    (hidle : options.idleS = none) : session.idleDeadline = none :=
  hreach.invariant (fun session => session.idleDeadline = none)
    (by simp [Session.start, hidle]) fun _ _ _ h _ hstep => Session.step_untimed hidle h hstep

/-- Before the hard cap the turn's own steps cut no wait. -/
theorem Prompt.uncut {start : Session} {action : Action} (h : Prompt start session action)
    (hearly : start.clock - start.turnStartedAt < options.hardCapS) :
    uncut options session action = true := by
  obtain ⟨hown, hclock, hstarted⟩ := h
  cases action with
  | resume => simp [CodexTurn.uncut, hclock, hstarted, hearly]
  | answerIdle moves answer => cases moves <;> cases answer <;> simp_all [CodexTurn.uncut, Action.own]
  | answerAccount => rfl
  | _ => simp [Action.own] at hown

/-- **Idle handling loses no notification.** When no wait is cancelled, what the turn yields is what
the filters let through of what it has taken, in that order; it never gives up, it returns only at the
sentinel, and by its own steps it yields all that has arrived. -/
theorem idle_loses_nothing (hcallback : options.hasOnIdle = true)
    (hreach : Reach (step options) (fun session action => uncut options session action = true)
      (.start options queue turnStartedAt now) session) :
    session.yielded = session.taken.reduceOption.filter (·.passes options.turnId) ∧
    session.arrived = session.taken ++ session.queue ∧
    (session.exit? = some .returned → none ∈ session.taken) ∧
    session.exit? ≠ some .timeoutError ∧
    ((∀ idle ∈ options.idleS, 0 < idle) →
      session.clock - session.turnStartedAt < options.hardCapS →
      ∃ next, Reach (step options) (fun session action => uncut options session action = true)
          session next ∧
        next.arrived = session.arrived ∧
        (next.exit?.isSome = true ∨
          next.yielded = next.arrived.reduceOption.filter (·.passes options.turnId))) := by
  have hstart := @Session.start_kept options queue turnStartedAt now
  have hkept := kept_of_reach hstart hreach
  have hwhole := whole_of_reach hcallback hreach
  refine ⟨hkept.filtered, hkept.queued, hwhole.returned, hwhole.patient, fun hpositive hearly => ?_⟩
  obtain ⟨next, hprompt, harrived, hdone⟩ :=
    @Session.drains options session hpositive (untimed_of_reach hreach)
  have hnext := hprompt.mono fun state action h => Prompt.uncut h hearly
  refine ⟨next, hnext, harrived, hdone.imp id fun hempty => ?_⟩
  have hkept' := kept_of_reach hstart (hreach.trans hnext)
  have hqueued : next.arrived = next.taken ++ next.queue := hkept'.queued
  have hfiltered : next.yielded = next.taken.reduceOption.filter _ := hkept'.filtered
  rw [hqueued, hempty, List.append_nil, hfiltered]

/-- A turn with three minutes of idle time. -/
def threeMinutes : Options where
  turnId := "turn-1"
  idleS := some 180
  hasOnIdle := true
  hasRateLimits := false
  hardCapS := 600
  probeIntervalS := 30
  stormThreshold := 25
  python := ⟨fun _ => "", fun _ => "", fun _ => none, fun _ => false⟩

def aDelta : Notification :=
  ⟨CodexNotif.agentMsgDelta, [("turnId", .string "turn-1"), ("delta", .string "Hi")]⟩

/-- The end of a turn, which names the turn only in `turn.id`. -/
def anEnd (turnId : String) : Notification :=
  ⟨CodexNotif.turnCompleted, [("turn", .object [("id", .string turnId)])]⟩

/-- The deadline comes before the turn waits, and the turn goes on. -/
theorem idle_loses_nothing_after_extension :
    ∃ session, run (step threeMinutes) (.start threeMinutes [] 0 0)
      [.elapse 200, .arrive (some aDelta), .resume, .answerIdle true true, .resume, .resume] =
        some session ∧
      session.yielded = session.taken.reduceOption.filter (·.passes "turn-1") ∧
      session.yielded.length = 1 := by
  have hallowed : RunAllowed (step threeMinutes) (fun session action =>
      uncut threeMinutes session action = true) (.start threeMinutes [] 0 0)
      [.elapse 200, .arrive (some aDelta), .resume, .answerIdle true true, .resume, .resume] := by
    decide +kernel
  have hruns : (run (step threeMinutes) (.start threeMinutes [] 0 0)
      [.elapse 200, .arrive (some aDelta), .resume, .answerIdle true true, .resume, .resume]).any
        (fun session => session.yielded.length = 1) = true := by decide +kernel
  obtain ⟨session, hrun, hlength⟩ := (Option.any_eq_true _ _).mp hruns
  exact ⟨session, hrun, (idle_loses_nothing rfl (reach_of_run hrun hallowed)).1,
    of_decide_eq_true hlength⟩

/-- The wait is cancelled, `on_idle` answers with an extension, and the turn returns without having
taken what has arrived, nor any sentinel. -/
theorem idle_loses_all :
    (run (step threeMinutes) (.start threeMinutes [] 0 0)
      [.resume, .elapse 180, .timeOut, .answerIdle true true, .arrive (some aDelta), .resume,
        .resume]).any (fun session =>
      session.exit? = some .returned && session.taken.isEmpty && session.yielded.isEmpty &&
        session.queue.any fun entry => entry.any (·.passes "turn-1")) = true := by
  decide +kernel

end
end CodexServer.CodexTurn
