import CodexServer.Proof.Conduct

/-!
# The stream keeps to the rules

The two generators are checked from the outside in: first the loop of the execution as the consumer
of a frame, then the code of `stream_turn` against this consumer, then the Codex client against the
body of the loop over its events.
-/

open Async

namespace CodexServer

variable {cfg : ExecConfig} {turn : TurnRow} {event : ChatEvent} {locals : ExecLocals}
  {history : ExecHistory} {failure : Fault}

/-! ### The consumer of a frame -/

/-- How the loop over the frames is left. -/
def frameLoopPost : Except Exn (Option Unit) → ExecLocals → ExecHistory → Prop :=
  either (fun _ => Concluded) fun _ => Failing

/-- What the loop does with a frame, for the generator that yields it. -/
def forwards (cfg : ExecConfig) : ChatEvent → (ExecLocals × ExecHistory → Prop) →
    ExecLocals × ExecHistory → Prop :=
  consumer (execMonitor cfg) (fun out _ _ => nomatch out) (forwardFrame cfg) frameLoopPost

theorem monotone_forwards : Program.Monotone (forwards cfg) :=
  monotone_consumer (fun out => nomatch out) (forwardFrame cfg) frameLoopPost

/-- The flags after a frame. -/
def ExecLocals.after (locals : ExecLocals) (event : ChatEvent) : ExecLocals :=
  match terminalOf event with
  | some (status, code, detail) =>
      { locals with
        terminalPublished := true
        terminalStatus := some status
        terminalError := if status = .failed then (code, detail) else locals.terminalError }
  | none => locals

def ExecHistory.append (history : ExecHistory) (event : ChatEvent) : ExecHistory :=
  { history with appended := history.appended ++ [event] }

theorem hasTerminal_append : (history.append event).hasTerminal =
    (history.hasTerminal || event.isTerminal) := by
  simp [ExecHistory.append, ExecHistory.hasTerminal]

theorem hasDone_append : (history.append event).hasDone = (history.hasDone || event.isDone) := by
  simp [ExecHistory.append, ExecHistory.hasDone]

theorem hasError_append : (history.append event).hasError = (history.hasError || event.isError) := by
  simp [ExecHistory.append, ExecHistory.hasError]

theorem Tracks.append (h : Tracks locals history) : Tracks locals (history.append event) where
  requested := h.requested
  skip := h.skip
  published hpublished := by simp [hasTerminal_append, h.published hpublished]
  completed hcompleted := by simpa [hasDone_append] using
    ⟨Or.inl (h.completed hcompleted).1, (h.completed hcompleted).2⟩
  cancelled := h.cancelled
  lease := h.lease

variable (cfg) in
/-- Ownership lost before a frame: the loop is left with an outcome. -/
theorem Tracks.lost (h : Tracks locals history) (hlate : history.hasTerminal → history.late)
    (hreleased : history.released = false) (error : Option String × Option String) :
    Concluded { locals with terminalStatus := some .failed, terminalError := error }
      (history.done cfg.turnId .ownershipLost true) where
  requested := h.requested
  skip := h.skip
  published := h.published
  completed hcompleted := absurd (Option.some.inj hcompleted) (by decide)
  cancelled hcancelled := absurd (Option.some.inj hcancelled) (by decide)
  lease := h.lease
  done hunlate hdone := by
    have hterminal : history.hasTerminal := by
      rw [ExecHistory.hasTerminal_eq]
      exact Bool.or_eq_true_iff.mpr (Or.inl hdone)
    exact absurd (hlate hterminal) (Bool.eq_false_iff.mp hunlate)
  error hunlate herror := by
    have hterminal : history.hasTerminal := by
      rw [ExecHistory.hasTerminal_eq]
      exact Bool.or_eq_true_iff.mpr (Or.inr herror)
    exact absurd (hlate hterminal) (Bool.eq_false_iff.mp hunlate)
  persisted htorn hpersisted := by
    have hpending : history.pending := by
      simp only [ExecHistory.pending, h.requested, Option.isNone_none, Bool.and_true]
      exact hpersisted
    simp [ExecHistory.done, hpending] at htorn
  released := hreleased
  outcome := Or.inr rfl

theorem done_ownershipLost_false :
    history.done cfg.turnId .ownershipLost false = history := by
  simp [ExecHistory.done]

/-- A frame reaches the stream when the rules allow it; anything raised on the way is on record. -/
theorem forwards_intro {rest : ExecLocals × ExecHistory → Prop} (htracks : Tracks locals history)
    (hlate : history.hasTerminal → history.late) (hreleased : history.released = false)
    (hallowed : ExecAllowed cfg history (.xadd cfg.turnId event))
    (hrest : rest (locals.after event, history.append event)) :
    forwards cfg event rest (locals, history) := by
  have happended : Tracks locals (history.append event) := htracks.append
  unfold forwards consumer forwardFrame publish
  refine (wp_await_bind _ _).mpr ⟨trivial, fun lost => ?_, fun _ => ?_⟩
  · cases lost with
    | true => exact htracks.lost cfg hlate hreleased _
    | false =>
        change Async.wp _ _ (if false = true then _ else _) _ _
          (history.done cfg.turnId .ownershipLost false)
        rw [done_ownershipLost_false, if_neg Bool.false_ne_true, wp_bind]
        refine (wp_await_bind _ _).mpr ⟨hallowed, fun rawId => ?_, fun _ => ?_⟩
        · refine (wp_await_bind _ _).mpr ⟨rfl, fun _ => ?_, fun _ => ?_⟩
          · refine (wp_await_bind _ _).mpr ⟨rfl, fun _ => ?_, fun _ => ?_⟩
            · revert hrest
              unfold ExecLocals.after
              cases terminalOf event with
              | none => exact id
              | some outcome => exact id
            · exact happended.failing rfl hreleased
          · exact happended.failing (ExecHistory.expireStream_unswallowed hreleased) hreleased
        · exact htracks.failing (ExecHistory.xadd_unswallowed hreleased) hreleased
  · exact htracks.failing rfl hreleased

theorem ExecLocals.after_eq (h : event.isTerminal = false) : locals.after event = locals := by
  obtain ⟨kind, eventId⟩ := event
  cases kind <;> first | rfl | cases h

/-- The first terminal frame settles the outcome, and so does an error frame after a fault. -/
theorem Tracks.concluded (h : Tracks locals history)
    (hlate : history.hasTerminal → history.late) (hreleased : history.released = false)
    (hterminal : event.isTerminal)
    (hpersisted : event.isDone = false → history.persisted → history.torn) :
    Concluded (locals.after event) (history.append event) := by
  have hquiet : (history.append event).late = false → history.hasTerminal = false := by
    intro hunlate
    by_contra hterminal
    exact absurd (hlate (Bool.not_eq_false _ ▸ hterminal)) (Bool.eq_false_iff.mp hunlate)
  obtain ⟨kind, eventId⟩ := event
  cases kind with
  | done chatId finalText message steered =>
      exact {
        requested := h.requested
        skip := h.skip
        published := fun _ => by simp [hasTerminal_append, hterminal]
        completed := fun _ => ⟨by simp [hasDone_append, ChatEvent.isDone], rfl⟩
        cancelled := fun hcancelled => absurd (Option.some.inj hcancelled) (by decide)
        lease := h.lease
        done := fun _ _ => ⟨rfl, rfl⟩
        error := fun hunlate herror => by
          have := hquiet hunlate
          simp_all [hasError_append, ExecHistory.hasTerminal_eq, ChatEvent.isError]
        persisted := fun _ _ => rfl
        released := hreleased
        outcome := Or.inr rfl }
  | error code detail =>
      exact {
        requested := h.requested
        skip := h.skip
        published := fun _ => by simp [hasTerminal_append, hterminal]
        completed := fun hcompleted => absurd (Option.some.inj hcompleted) (by decide)
        cancelled := fun hcancelled => absurd (Option.some.inj hcancelled) (by decide)
        lease := h.lease
        done := fun hunlate hdone => by
          have := hquiet hunlate
          simp_all [hasDone_append, ExecHistory.hasTerminal_eq, ChatEvent.isDone]
        error := fun _ _ => ⟨rfl, rfl⟩
        persisted := fun htorn htext => absurd (hpersisted rfl htext) (Bool.eq_false_iff.mp htorn)
        released := hreleased
        outcome := Or.inr rfl }
  | turnStarted | token | toolCall | toolResult => cases hterminal

variable {rest : ExecLocals × ExecHistory → Prop}

theorem forwards_frame (h : Streaming locals history) (hreceived : history.received)
    (hevent : event.isTerminal = false) (hrest : rest (locals, history.append event)) :
    forwards cfg event rest (locals, history) := by
  have hdone : event.isDone = false := (Bool.or_eq_false_iff.mp hevent).1
  refine forwards_intro h.tracks (by simp [h.quiet]) h.released ?_
    (by rwa [ExecLocals.after_eq hevent])
  exact ⟨rfl, h.requested, fun _ => h.quiet, Or.inr hreceived, by simp [hdone]⟩

theorem forwards_done (h : Streaming locals history) (hreceived : history.received)
    (hevent : event.isDone) (hpersisted : history.persisted ∨ history.collector.hasContent = false)
    (hrest : Concluded (locals.after event) (history.append event) →
      rest (locals.after event, history.append event)) :
    forwards cfg event rest (locals, history) := by
  have hlate : history.hasTerminal → history.late := by simp [h.quiet]
  refine forwards_intro h.tracks hlate h.released ?_ (hrest ?_)
  · exact ⟨rfl, h.requested, fun _ => h.quiet, Or.inr hreceived, fun _ => hpersisted⟩
  · exact h.tracks.concluded hlate h.released (by simp [ChatEvent.isTerminal, hevent])
      (by simp [hevent])

theorem forwards_error (h : Failing locals history) (hevent : event.isError)
    (hdone : event.isDone = false)
    (hrest : Concluded (locals.after event) (history.append event) →
      rest (locals.after event, history.append event)) :
    forwards cfg event rest (locals, history) := by
  refine forwards_intro h.toTracks h.late h.released ?_ (hrest ?_)
  · refine ⟨rfl, h.requested, fun hunlate => ?_, Or.inl hevent, by simp [hdone]⟩
    by_contra hterminal
    exact absurd (h.late (Bool.not_eq_false _ ▸ hterminal)) (Bool.eq_false_iff.mp hunlate)
  · exact h.toTracks.concluded h.late h.released (by simp [ChatEvent.isTerminal, hevent])
      fun _ => h.torn

/-! ### Inside `stream_turn` -/

/-- The variables of `stream_turn` while frames may still come; `seen` says whether a notification
has come in. -/
structure Hot (seen : Bool) (state : StreamState) (now : ExecLocals × ExecHistory) : Prop
    extends Streaming now.1 now.2 where
  unpersisted : now.2.persisted = false
  collector : state.collector = now.2.collector
  partials : state.partialMsgIds = now.2.partials
  received : now.2.received = seen
  fresh : seen = false → state.collector = {} ∧ state.pendingText = []
  marked : seen = true → now.2.marked.isSome

/-- The variables of `stream_turn` after something was raised before the final persist. -/
structure Broken (state : StreamState) (now : ExecLocals × ExecHistory) : Prop
    extends Failing now.1 now.2 where
  unpersisted : now.2.persisted = false
  fresh : now.2.received = false → state.collector = {}

/-- Where the loop over the events raises: a fault, or the probe's verdict between two events. -/
def loopRaises : Exn → StreamState → ExecLocals × ExecHistory → Prop
  | .codexTurnTerminal _ _ => Hot true
  | .fault _ => Broken

/-- How `stream_turn` ends. -/
def streamPost : Except Exn Unit → StreamState → ExecLocals × ExecHistory → Prop :=
  either (fun _ _ now => Concluded now.1 now.2) fun _ _ now => Failing now.1 now.2

variable {seen : Bool} {state : StreamState} {now : ExecLocals × ExecHistory} {op : Op}

theorem Hot.broken (h : Hot seen state now) : Broken state now where
  toFailing := h.toStreaming.failing h.unpersisted
  unpersisted := h.unpersisted
  fresh hreceived := (h.fresh (h.received.symm.trans hreceived)).1

theorem Hot.fault (h : Hot seen state now) (hop : op.isLeaseAcquisition = false) :
    Hot seen state (now.1, now.2.fault op failure) :=
  { h with skipped := (ExecHistory.fault_skipped hop).trans h.skipped }

theorem Broken.fault (h : Broken state now)
    (hraised : now.2.swallowed op failure = false) :
    Broken state (now.1, now.2.fault op failure) where
  toFailing := h.toTracks.failing hraised h.released
  unpersisted := h.unpersisted
  fresh := h.fresh

theorem Hot.append (h : Hot seen state now) (hevent : event.isTerminal = false) :
    Hot seen state (now.1, now.2.append event) :=
  { h with quiet := by simp [hasTerminal_append, h.quiet, hevent] }

theorem Hot.seen_of_collector (h : Hot seen state now) (hcollector : state.collector ≠ {}) :
    seen = true := by
  by_contra hseen
  exact hcollector (h.fresh (by simpa using hseen)).1

theorem Broken.received (h : Broken state now) (hcollector : state.collector ≠ {}) :
    now.2.received := by
  by_contra hreceived
  exact hcollector (h.fresh (by simpa using hreceived))

/-- Text or calls that are not in a partial row yet came from a notification. -/
theorem collector_ne_of_segmentDelta (h : ¬(state.segmentDelta.1 = "" ∧ state.segmentDelta.2 = [])) :
    state.collector ≠ {} := by
  intro hcollector
  apply h
  simp [StreamState.segmentDelta, hcollector]

abbrev streamWp {α : Type} (cfg : ExecConfig) (code : StreamCode α)
    (post : Except Exn α → StreamState → ExecLocals × ExecHistory → Prop) (state : StreamState)
    (now : ExecLocals × ExecHistory) : Prop :=
  Async.wp (overLocals (execMonitor cfg)) (forwards cfg) code post state now

/-- The code of `stream_turn` between two frames or after the last. -/
abbrev StreamTriple {α : Type} (cfg : ExecConfig)
    (pre : StreamState → ExecLocals × ExecHistory → Prop) (code : StreamCode α)
    (post : α → StreamState → ExecLocals × ExecHistory → Prop)
    (raises : Exn → StreamState → ExecLocals × ExecHistory → Prop) : Prop :=
  Triple (overLocals (execMonitor cfg)) (forwards cfg) pre code post raises

/-! ### Partial messages -/

/-- The two awaits of a partial message. -/
theorem persistPartialSegment_intro {emitJournal : Bool}
    {post : Except Exn Unit → StreamState → ExecLocals × ExecHistory → Prop}
    (hreceived : now.2.received) (hpersisted : now.2.persisted = false)
    (hvalue : ∀ id, post (.ok ())
      { state with partialMsgIds := state.partialMsgIds ++ [id] }.cutSegment
      (now.1, { now.2 with partials := now.2.partials ++ [id] }))
    (hpersist : ∀ op failure, now.2.swallowed op failure = false →
      post (.error (.fault failure)) state (now.1, now.2.fault op failure))
    (hrefresh : ∀ id failure, post (.error (.fault failure)) state
      (now.1, ExecHistory.fault { now.2 with partials := now.2.partials ++ [id] } .refresh failure)) :
    streamWp cfg (persistPartialSegment cfg turn emitJournal) post state now := by
  unfold streamWp persistPartialSegment persistAssistantTurn
  rw [wp_bind, wp_getLocal, either_ok, wp_bind]
  refine (wp_await_bind _ _).mpr ⟨⟨rfl, rfl, hreceived, hpersisted⟩, fun id => ?_, fun _ => ?_⟩
  · refine (wp_await_bind _ _).mpr ⟨trivial, fun _ => ?_, fun failure => hrefresh id failure⟩
    exact hvalue id
  · exact hpersist _ _ rfl

theorem Hot.cutSegment (h : Hot seen state now) (id : Nat) :
    Hot seen { state with partialMsgIds := state.partialMsgIds ++ [id] }.cutSegment
      (now.1, { now.2 with partials := now.2.partials ++ [id] }) :=
  { h with
    partials := congrArg (· ++ [id]) h.partials
    quiet := h.quiet }

theorem Broken.partialStored (h : Broken state now) (id : Nat) {state' : StreamState}
    (hstate : state'.collector = state.collector) :
    Broken state' (now.1, { now.2 with partials := now.2.partials ++ [id] }) :=
  { h with
    fresh := fun hreceived => hstate.trans (h.fresh hreceived)
    published := h.published
    completed := h.completed
    late := h.late
    torn := h.torn }

theorem persistSegment_spec :
    StreamTriple cfg (Hot seen) (persistSegment cfg turn) (fun _ => Hot seen) loopRaises := by
  intro state now h
  unfold persistSegment
  rw [wp_bind, wp_getLocal, either_ok, wp_ite]
  split
  · exact h
  · rename_i htext
    have hseen : seen = true :=
      h.seen_of_collector (collector_ne_of_segmentDelta fun hdelta => htext hdelta.1)
    refine persistPartialSegment_intro (h.received.trans hseen) h.unpersisted h.cutSegment
      (fun _ _ hraised => h.broken.fault hraised)
      fun id _ => (h.broken.partialStored id rfl).fault rfl

variable (cfg turn) in
theorem noteSteerCount_spec (count : Nat) :
    StreamTriple cfg (Hot seen) (noteSteerCount cfg turn count) (fun _ => Hot seen)
      loopRaises := by
  intro state now h
  unfold noteSteerCount
  rw [wp_bind, wp_getLocal, either_ok, wp_ite]
  split
  · exact h
  · rw [wp_bind, wp_modifyLocal, either_ok]
    exact persistSegment_spec _ _ { h with }

theorem checkSteerBoundary_spec :
    StreamTriple cfg (Hot seen) (checkSteerBoundary cfg turn) (fun _ => Hot seen) loopRaises := by
  intro state now h
  unfold checkSteerBoundary
  rw [wp_bind, wp_orOnRedisError]
  refine (wp_await _).mpr ⟨trivial, fun count => noteSteerCount_spec cfg turn count _ _ h,
    fun failure => ?_⟩
  cases failure with
  | redisError text => exact noteSteerCount_spec cfg turn 0 _ _ (h.fault rfl)
  | cancelled | timeout | rpcError | staleTurnStream | staleSidecarTurn | queueError | other =>
      exact h.broken.fault rfl

theorem flushTokenBuffer_spec :
    StreamTriple cfg (Hot seen) flushTokenBuffer (fun _ => Hot seen) loopRaises := by
  intro state now h
  unfold flushTokenBuffer
  rw [wp_bind, wp_getLocal, either_ok, wp_ite]
  split
  · exact h
  · rename_i hpending
    have hseen : seen = true := by
      by_contra hseen
      exact hpending (h.fresh (by simpa using hseen)).2
    rw [wp_bind, wp_modifyLocal, either_ok, wp_emit]
    refine forwards_frame h.toStreaming (h.received.trans hseen) rfl ?_
    have hcleared : Hot seen { state with pendingText := [], pendingSize := 0 } now :=
      { h with fresh := fun hnone => ⟨(h.fresh hnone).1, rfl⟩ }
    exact hcleared.append rfl

/-! ### The body of the loop over the events -/

/-- What the body of the loop leaves. -/
def loopPost (seen : Bool) : Option LoopExit → StreamState → ExecLocals × ExecHistory → Prop
  | none | some .done => Hot seen
  | some .failed => fun _ now => Concluded now.1 now.2

variable {codexEvent : CodexEvent}

theorem forwardEvent_spec (hevent : (chatEventToPb codexEvent).isTerminal = false) :
    StreamTriple cfg (Hot true) (forwardEvent cfg turn codexEvent) (loopPost true)
      loopRaises := by
  intro state now h
  unfold forwardEvent
  rw [wp_bind]
  refine flushTokenBuffer_spec.call monotone_forwards h ?_ fun _ _ _ herror => herror
  intro _ state now h
  rw [either_ok, wp_bind, wp_emit]
  refine forwards_frame h.toStreaming h.received hevent ?_
  rw [either_ok, wp_bind]
  exact checkSteerBoundary_spec.call monotone_forwards (h.append hevent) (fun _ _ _ h => h)
    fun _ _ _ herror => herror

theorem flushAndCheck_spec (exit : Option LoopExit) (hexit : exit ≠ some .failed) :
    StreamTriple cfg (Hot seen)
      (do
        flushTokenBuffer
        checkSteerBoundary cfg turn
        pure exit)
      (loopPost seen) loopRaises := by
  intro state now h
  rw [wp_bind]
  refine flushTokenBuffer_spec.call monotone_forwards h ?_ fun _ _ _ herror => herror
  intro _ state now h
  rw [either_ok, wp_bind]
  refine checkSteerBoundary_spec.call monotone_forwards h ?_ fun _ _ _ herror => herror
  intro _ state now h
  match exit with
  | none | some .done => exact h
  | some .failed => exact absurd rfl hexit

theorem coalesceToken_spec (delta : String) :
    StreamTriple cfg (Hot true) (coalesceToken cfg turn delta) (loopPost true) loopRaises := by
  intro state now h
  have hbuffered : Hot true { state with
      pendingText := state.pendingText ++ [delta]
      pendingSize := state.pendingSize + delta.utf8ByteSize } now :=
    { h with fresh := nofun }
  unfold coalesceToken
  rw [wp_bind, wp_modifyLocal, either_ok, wp_bind, wp_getLocal, either_ok, wp_ite]
  split
  · exact flushAndCheck_spec none nofun _ _ hbuffered
  · exact hbuffered

/-- The error frame ends the stream; the journal entry after it may still fail. -/
theorem handleError_spec (code : String) (detail : Option String) :
    StreamTriple cfg (Hot seen) (handleEvent cfg turn (.error code detail)) (loopPost seen)
      loopRaises := by
  intro state now h
  unfold handleEvent
  rw [wp_bind]
  refine flushTokenBuffer_spec.call monotone_forwards h ?_ fun _ _ _ herror => herror
  intro _ state now h
  rw [either_ok, wp_bind, wp_emit]
  refine forwards_error h.broken.toFailing rfl rfl fun hconcluded => ?_
  rw [either_ok, emitEvent]
  refine (wp_await_bind _ _).mpr ⟨⟨rfl, nofun⟩, fun _ => hconcluded, fun _ => ?_⟩
  exact {
    toFailing := hconcluded.toTracks.failing rfl h.released
    unpersisted := h.unpersisted
    fresh := h.broken.fresh }

/-- Only an error may come without a notification. -/
theorem handleEvent_spec (hnoted : seen = true ∨ ∃ code detail, codexEvent = .error code detail) :
    StreamTriple cfg (Hot seen) (handleEvent cfg turn codexEvent) (loopPost seen) loopRaises := by
  cases codexEvent with
  | error code detail => exact handleError_spec code detail
  | done text => exact flushAndCheck_spec (some .done) nofun
  | token delta =>
      obtain rfl := hnoted.resolve_right nofun
      intro state now h
      unfold handleEvent
      rw [wp_ite]
      split
      · exact coalesceToken_spec delta _ _ h
      · exact forwardEvent_spec rfl _ _ h
  | toolCall record =>
      obtain rfl := hnoted.resolve_right nofun
      exact forwardEvent_spec rfl
  | toolResult name text attachments error =>
      obtain rfl := hnoted.resolve_right nofun
      exact forwardEvent_spec rfl

/-- An event has come in and is not absorbed yet. -/
structure Delivered (seen : Bool) (event : CodexEvent) (state : StreamState)
    (now : ExecLocals × ExecHistory) : Prop where
  hot : Hot seen { state with collector := state.collector.absorb event } now
  fresh : seen = false → state.collector = {}
  noted : seen = true ∨ ∃ code detail, event = .error code detail

theorem Delivered.broken (h : Delivered seen codexEvent state now) : Broken state now where
  toFailing := h.hot.broken.toFailing
  unpersisted := h.hot.unpersisted
  fresh hreceived := h.fresh (h.hot.received.symm.trans hreceived)

/-- One turn of the loop. The publication on the bus may fail in Redis without consequences. -/
theorem streamEvent_spec :
    StreamTriple cfg (Delivered seen codexEvent) (streamEvent cfg turn codexEvent) (loopPost seen)
      loopRaises := by
  intro state now h
  have hrest (now : ExecLocals × ExecHistory) (h : Delivered seen codexEvent state now) :
      streamWp cfg (do
        modifyLocal fun state => { state with collector := state.collector.absorb codexEvent }
        handleEvent cfg turn codexEvent) (either (loopPost seen) loopRaises) state now := by
    unfold streamWp
    rw [wp_bind, wp_modifyLocal, either_ok]
    exact handleEvent_spec h.noted _ _ h.hot
  unfold streamEvent
  rw [wp_bind, wp_orOnRedisError]
  refine (wp_await _).mpr ⟨trivial, fun _ => hrest now h, fun failure => ?_⟩
  cases failure with
  | redisError text => exact hrest _ ⟨h.hot.fault rfl, h.fresh, h.noted⟩
  | cancelled | timeout | rpcError | staleTurnStream | staleSidecarTurn | queueError | other =>
      exact h.broken.fault rfl

/-! ### The Codex client -/

/-- How the loop over the events is left. -/
def eventLoopEnd : Except Exn (Option LoopExit) → StreamState → ExecLocals × ExecHistory → Prop
  | .ok none | .ok (some .done) => fun state now => ∃ seen, Hot seen state now
  | .ok (some .failed) => fun _ now => Concluded now.1 now.2
  | .error error => loopRaises error

/-- What `stream_turn` does with an event, for the client that yields it. -/
def absorbs (cfg : ExecConfig) (turn : TurnRow) : CodexEvent →
    (StreamState × ExecLocals × ExecHistory → Prop) → StreamState × ExecLocals × ExecHistory → Prop :=
  consumer (overLocals (execMonitor cfg)) (forwards cfg) (streamEvent cfg turn) eventLoopEnd

theorem monotone_absorbs : Program.Monotone (absorbs cfg turn) :=
  monotone_consumer monotone_forwards (streamEvent cfg turn) eventLoopEnd

theorem absorbs_intro {rest : StreamState × ExecLocals × ExecHistory → Prop}
    (h : Delivered seen codexEvent state now)
    (hrest : ∀ state now, Hot seen state now → rest (state, now)) :
    absorbs cfg turn codexEvent rest (state, now) := by
  refine streamEvent_spec.call monotone_forwards h ?_ fun _ _ _ herror => herror
  intro exit state now hexit
  match exit with
  | none => exact hrest state now hexit
  | some .done => exact ⟨seen, hexit⟩
  | some .failed => exact hexit

/-- The code of the client, under the loop of `stream_turn`. -/
abbrev ClientTriple {α : Type} (cfg : ExecConfig) (turn : TurnRow)
    (pre : StreamState × ExecLocals × ExecHistory → Prop) (code : ClientCode α)
    (post : α → StreamState × ExecLocals × ExecHistory → Prop) : Prop :=
  Triple (overLocals (overLocals (execMonitor cfg))) (absorbs cfg turn) (fun _ => pre) code
    (fun value _ => post value) fun error _ now => loopRaises error now.1 now.2

/-- The client between two notifications. -/
def Following (seen : Bool) (now : StreamState × ExecLocals × ExecHistory) : Prop :=
  Hot seen now.1 now.2

theorem interruptBestEffort_client (threadId codexTurnId : String) :
    ClientTriple cfg turn (Following true) (interruptBestEffort threadId codexTurnId)
      fun _ => Following true := by
  intro _ now h
  unfold interruptBestEffort
  rw [wp_ite]
  split
  · exact h
  · rw [wp_exceptException]
    refine (wp_await _).mpr ⟨trivial, fun _ => h, fun failure => ?_⟩
    cases failure with
    | cancelled => exact Hot.broken (Hot.fault h rfl)
    | redisError | timeout | rpcError | staleTurnStream | staleSidecarTurn | queueError | other =>
        exact Hot.fault h rfl

variable (cfg turn) in
theorem idleVerdict_spec (raw : Option String) :
    ClientTriple cfg turn (Following true) (idleVerdict raw) fun _ => Following true := by
  intro _ now h
  unfold idleVerdict
  rw [wp_ite]
  split
  · exact h
  · split <;> exact h

theorem probeOrExtendIdle_spec (threadId codexTurnId : String) (probed : Option String) :
    ClientTriple cfg turn (Following true) (probeOrExtendIdle threadId codexTurnId probed)
      fun _ => Following true := by
  intro locals now h
  unfold probeOrExtendIdle
  rw [wp_ite]
  split
  · exact h
  · rw [wp_bind, wp_exceptException]
    refine (wp_await_bind _ _).mpr ⟨trivial, fun _ => idleVerdict_spec cfg turn probed locals now h,
      fun failure => ?_⟩
    have hfault : Hot true now.1 (now.2.1, now.2.2.fault (.external .probe) failure) :=
      Hot.fault h rfl
    cases failure with
    | cancelled => exact hfault.broken
    | redisError | timeout | rpcError | staleTurnStream | staleSidecarTurn | queueError | other =>
        exact idleVerdict_spec cfg turn none locals _ hfault

variable (cfg turn) in
theorem handleSilence_spec (threadId codexTurnId : String) (probed : Option String) :
    ClientTriple cfg turn (Following true) (handleSilence threadId codexTurnId probed)
      fun _ => Following true := by
  intro locals now h
  unfold handleSilence
  rw [wp_bind]
  refine (probeOrExtendIdle_spec threadId codexTurnId probed).call monotone_absorbs h ?_
    fun _ _ _ herror => herror
  intro extended locals now h
  rw [either_ok, wp_ite]
  split
  · exact h
  · rw [wp_bind]
    exact (interruptBestEffort_client threadId codexTurnId).call monotone_absorbs h
      (fun _ _ _ h => h) fun _ _ _ herror => herror

theorem handleIdle_spec (chatId : Nat) (threadId codexTurnId : String) (probed : Option String) :
    ClientTriple cfg turn (Following true) (handleIdle chatId threadId codexTurnId probed)
      fun _ => Following true := by
  intro locals now h
  unfold handleIdle
  rw [wp_bind, wp_orOnRedisError]
  refine (wp_await _).mpr ⟨trivial, fun consumed => ?_, fun failure => ?_⟩
  · rw [either_ok, either_ok, wp_ite]
    split
    · exact h
    · exact handleSilence_spec cfg turn threadId codexTurnId probed locals now h
  · have hfault : Hot true now.1
        (now.2.1, now.2.2.fault (.consumeSteer chatId codexTurnId) failure) := Hot.fault h rfl
    cases failure with
    | redisError text =>
        exact handleSilence_spec cfg turn threadId codexTurnId probed locals _ hfault
    | cancelled | timeout | rpcError | staleTurnStream | staleSidecarTurn | queueError | other =>
        exact hfault.broken

/-- A notification comes in and goes through the body of the loop. -/
theorem noteEvent_intro {event : CodexEvent} {locals : Unit}
    {now : StreamState × ExecLocals × ExecHistory} {code : ClientCode Unit} (h : Following seen now)
    (hmarked : now.2.2.marked.isSome)
    (hcode : ∀ now, Following true now →
      Async.wp (overLocals (overLocals (execMonitor cfg))) (absorbs cfg turn) code
        (either (fun _ _ now => ∃ seen, Following seen now)
          fun error _ now => loopRaises error now.1 now.2) locals now) :
    Async.wp (overLocals (overLocals (execMonitor cfg))) (absorbs cfg turn)
      (do
        await (.nextNote (.event event))
        emit event
        code)
      (either (fun _ _ now => ∃ seen, Following seen now)
        fun error _ now => loopRaises error now.1 now.2) locals now := by
  have hdelivered : Delivered true event now.1
      (now.2.1, now.2.2.done cfg.turnId (.nextNote (.event event)) ()) := by
    refine ⟨?_, nofun, Or.inl rfl⟩
    exact { h with
      collector := congrArg (·.absorb event) h.collector
      received := rfl
      fresh := nofun
      marked := fun _ => hmarked
      quiet := h.quiet }
  refine (wp_await_bind _ _).mpr ⟨⟨h.quiet, hmarked⟩, fun _ => ?_, fun _ => (Hot.fault h rfl).broken⟩
  rw [wp_bind, wp_emit]
  exact absorbs_intro hdelivered fun state now hhot => hcode (state, now) hhot

theorem currentTurnNotifications_spec (chatId : Nat) (threadId codexTurnId : String)
    (notes : List CodexNote) :
    ClientTriple cfg turn (fun now => Following seen now ∧ now.2.2.marked.isSome)
      (currentTurnNotifications chatId threadId codexTurnId notes)
      fun _ now => ∃ seen, Following seen now := by
  induction notes generalizing seen with
  | nil => exact fun _ _ h => ⟨seen, h.1⟩
  | cons note rest ih =>
      rintro locals now ⟨h, hmarked⟩
      cases note with
      | event event =>
          unfold currentTurnNotifications
          refine noteEvent_intro h hmarked fun now h => ?_
          split
          · exact ⟨true, h⟩
          · exact ⟨true, h⟩
          · exact ih locals now ⟨h, h.marked rfl⟩
      | idle probed =>
          have hidle : Following true
              (now.1, now.2.1, now.2.2.done cfg.turnId (.nextNote (.idle probed)) ()) :=
            { h with
              received := rfl
              fresh := nofun
              marked := fun _ => hmarked
              quiet := h.quiet }
          unfold currentTurnNotifications
          refine (wp_await_bind _ _).mpr
            ⟨⟨h.quiet, hmarked⟩, fun _ => ?_, fun _ => (Hot.fault h rfl).broken⟩
          rw [wp_bind]
          refine (handleIdle_spec chatId threadId codexTurnId probed).call monotone_absorbs hidle ?_
            fun _ _ _ herror => herror
          intro extended locals now h
          rw [either_ok, wp_ite]
          split
          · exact ih locals now ⟨h, h.marked rfl⟩
          · exact Hot.broken h

/-- The whole client, from a record without ids on. -/
theorem runTurn_spec (chatId : Nat) :
    ClientTriple cfg turn (fun now => Following false now ∧ now.2.2.codex = none ∧
        now.2.2.marked = none) (runTurn cfg chatId) fun _ now => ∃ seen, Following seen now := by
  rintro locals now ⟨h, hcodex, hmarked⟩
  unfold runTurn
  refine (wp_await_bind _ _).mpr ⟨hcodex, fun _ => ?_, fun _ => (Hot.fault h rfl).broken⟩
  cases hstart : cfg.script.start with
  | error detail =>
      have hdelivered : Delivered false (.error CodexErrorCode.codexError (some detail)) now.1
          now.2 := ⟨h, fun _ => (h.fresh rfl).1, Or.inr ⟨_, _, rfl⟩⟩
      rw [wp_emit]
      exact absorbs_intro hdelivered fun state now hhot => ⟨false, hhot⟩
  | ok ids =>
      have hstarted : Following false (now.1, now.2.1, { now.2.2 with codex := some ids }) :=
        { h with quiet := h.quiet }
      unfold markStarted
      rw [wp_bind]
      refine (wp_await_bind _ _).mpr ⟨⟨rfl, rfl, hmarked⟩, fun marked => ?_,
        fun _ => (Hot.fault hstarted rfl).broken⟩
      have hrunning : Following false
          (now.1, now.2.1, { now.2.2 with codex := some ids, marked := some marked }) :=
        { h with
          quiet := h.quiet
          marked := nofun }
      exact currentTurnNotifications_spec chatId ids.1 ids.2 cfg.script.notes locals _
        ⟨hrunning, rfl⟩

/-! ### The ways out of `stream_turn` -/

/-- Whatever is raised from here on is raised out of `stream_turn`. -/
def exitRaises : Exn → StreamState → ExecLocals × ExecHistory → Prop :=
  fun _ _ now => Failing now.1 now.2

theorem persistVisiblePartial_spec :
    StreamTriple cfg Broken (persistVisiblePartial cfg turn) (fun _ => Broken) exitRaises := by
  intro state now h
  unfold persistVisiblePartial
  rw [wp_bind, wp_getLocal, either_ok, wp_ite]
  split
  · exact h
  · rename_i hdelta
    exact persistPartialSegment_intro (h.received (collector_ne_of_segmentDelta hdelta))
      h.unpersisted (fun id => h.partialStored id rfl)
      (fun _ _ hraised => (h.fault hraised).toFailing)
      fun id _ => ((h.partialStored id rfl).fault rfl : Broken state _).toFailing

theorem interruptBestEffort_spec (threadId codexTurnId : String) :
    StreamTriple cfg Broken (interruptBestEffort threadId codexTurnId) (fun _ => Broken)
      exitRaises := by
  intro state now h
  unfold interruptBestEffort
  rw [wp_ite]
  split
  · exact h
  · rw [wp_exceptException]
    refine (wp_await _).mpr ⟨trivial, fun _ => h, fun failure => ?_⟩
    have hfault : Broken state (now.1, now.2.fault (.external .interrupt) failure) :=
      h.fault rfl
    cases failure with
    | cancelled => exact hfault.toFailing
    | redisError | timeout | rpcError | staleTurnStream | staleSidecarTurn | queueError | other =>
        exact hfault

theorem quarantineThread_spec (threadId : String) :
    StreamTriple cfg Broken (quarantineThread threadId) (fun _ => Broken) exitRaises := by
  intro state now h
  unfold quarantineThread
  rw [wp_ite]
  split
  · exact h
  · rw [wp_orOnRedisError]
    refine (wp_await _).mpr ⟨trivial, fun _ => h, fun failure => ?_⟩
    have hfault : Broken state (now.1, now.2.fault (.external .quarantine) failure) :=
      h.fault rfl
    cases failure with
    | redisError text => exact hfault
    | cancelled | timeout | rpcError | staleTurnStream | staleSidecarTurn | queueError | other =>
        exact hfault.toFailing

/-- The final message is there, and the done frame may go out. -/
structure Finished (now : ExecLocals × ExecHistory) : Prop extends Streaming now.1 now.2 where
  received : now.2.received
  persisted : now.2.persisted ∨ now.2.collector.hasContent = false

theorem finalizeTurnPersist_spec :
    StreamTriple cfg (Hot true) (finalizeTurnPersist cfg turn) (fun _ _ => Finished)
      exitRaises := by
  intro state now h
  have hstored : Streaming now.1 { now.2 with persisted := true } :=
    { h with quiet := h.quiet }
  unfold finalizeTurnPersist
  rw [wp_bind, wp_getLocal, either_ok]
  refine (wp_await_bind _ _).mpr ⟨⟨rfl, rfl, h.received, h.unpersisted, h.quiet, h.partials⟩,
    fun message => ?_, fun _ => (h.broken.fault rfl).toFailing⟩
  refine (wp_await_bind _ _).mpr ⟨trivial, fun _ => ?_, fun _ => ?_⟩
  · exact { hstored with
      received := h.received
      persisted := Or.inl rfl }
  · exact hstored.tracks.failing rfl h.released

/-- A done frame ends the stream. -/
theorem emitDone_intro (h : Finished now) (hevent : event.isDone) :
    streamWp cfg (emit event) streamPost state now := by
  unfold streamWp
  rw [wp_emit]
  exact forwards_done h.toStreaming h.received hevent h.persisted id

/-- An error frame ends the stream. -/
theorem emitError_intro (h : Failing now.1 now.2) (hevent : event.isError)
    (hdone : event.isDone = false) :
    streamWp cfg (emit event) streamPost state now := by
  unfold streamWp
  rw [wp_emit]
  exact forwards_error h hevent hdone id

theorem emitEvent_spec {kind : EventKind} (hkind : kind ≠ .turnCompleted) :
    StreamTriple cfg (fun _ now => Concluded now.1 now.2) (emitEvent cfg turn kind)
      (fun _ _ now => Concluded now.1 now.2) exitRaises := by
  intro state now h
  exact (wp_await _).mpr ⟨⟨rfl, hkind⟩, fun _ => h, fun _ => h.toTracks.failing rfl h.released⟩

/-- An error frame and its journal entry. -/
theorem emitErrorEvent_intro {kind : EventKind} {code : String} {detail : Option String}
    (h : Failing now.1 now.2) (hkind : kind ≠ .turnCompleted) :
    streamWp cfg (do
      emit (errorEvent code detail)
      emitEvent cfg turn kind) streamPost state now := by
  unfold streamWp
  rw [wp_bind]
  refine wp_mono monotone_forwards (emitError_intro h rfl rfl) ?_
  intro outcome state now houtcome
  cases outcome with
  | ok value => exact emitEvent_spec hkind state now houtcome
  | error error => exact houtcome

/-- The probe's verdict gives the last frame. -/
theorem eventFromProbeTerminal_spec (status : TurnStatus) (raw : String) :
    StreamTriple cfg (Hot true) (eventFromProbeTerminal cfg turn status raw)
      (fun event _ now => (event.isDone ∧ Finished now) ∨
        (event.isError ∧ event.isDone = false ∧ Failing now.1 now.2)) exitRaises := by
  intro state now h
  unfold eventFromProbeTerminal
  rw [wp_bind, wp_getLocal, either_ok, wp_ite]
  split
  · rw [wp_ite]
    split
    · rw [wp_bind]
      exact finalizeTurnPersist_spec.call monotone_forwards h
        (fun _ _ _ hfinished => Or.inl ⟨rfl, hfinished⟩) fun _ _ _ herror => herror
    · rename_i hcontent
      refine Or.inl ⟨rfl, { h.toStreaming with
        received := h.received
        persisted := Or.inr ?_ }⟩
      rw [← h.collector]
      simpa using hcontent
  · rw [wp_bind]
    exact persistVisiblePartial_spec.call monotone_forwards h.broken
      (fun _ _ _ hbroken => Or.inr ⟨rfl, rfl, hbroken.toFailing⟩) fun _ _ _ herror => herror

/-- What the handlers of a dead stream do before their frame. -/
theorem abandonThread_intro {code : StreamCode Unit} {threadId codexTurnId : String}
    (h : Broken state now)
    (hcode : ∀ state now, Broken state now → streamWp cfg code streamPost state now) :
    streamWp cfg (do
      interruptBestEffort threadId codexTurnId
      quarantineThread threadId
      persistVisiblePartial cfg turn
      code) streamPost state now := by
  unfold streamWp
  rw [wp_bind]
  refine (interruptBestEffort_spec threadId codexTurnId).call monotone_forwards h ?_
    fun _ _ _ herror => herror
  intro _ state now h
  rw [either_ok, wp_bind]
  refine (quarantineThread_spec threadId).call monotone_forwards h ?_ fun _ _ _ herror => herror
  intro _ state now h
  rw [either_ok, wp_bind]
  exact persistVisiblePartial_spec.call monotone_forwards h (fun _ => hcode)
    fun _ _ _ herror => herror

/-- A cancellation persists what is there and goes on. -/
theorem streamCancelled_intro (h : Broken state now) :
    streamWp cfg (streamFailed cfg turn (.fault .cancelled)) streamPost state now := by
  unfold streamWp streamFailed
  rw [wp_bind]
  refine (interruptBestEffort_spec _ _).call monotone_forwards h ?_ fun _ _ _ herror => herror
  intro _ state now h
  rw [either_ok, wp_bind]
  refine persistVisiblePartial_spec.call monotone_forwards h ?_ fun _ _ _ herror => herror
  intro _ state now h
  exact (wp_await_bind _ _).mpr ⟨⟨rfl, nofun⟩, fun _ => h.toFailing,
    fun _ => (h.fault rfl).toFailing⟩

theorem streamFailed_intro {error : Exn} (h : loopRaises error state now) :
    streamWp cfg (streamFailed cfg turn error) streamPost state now := by
  cases error with
  | codexTurnTerminal status raw =>
      unfold streamWp streamFailed
      rw [wp_bind]
      refine (eventFromProbeTerminal_spec status raw).call monotone_forwards h ?_
        fun _ _ _ herror => herror
      rintro event state now (⟨hdone, hfinished⟩ | ⟨herror, hdone, hfailing⟩)
      · exact emitDone_intro hfinished hdone
      · exact emitError_intro hfailing herror hdone
  | fault fault =>
      cases fault with
      | cancelled => exact streamCancelled_intro h
      | staleTurnStream text | timeout text =>
          exact abandonThread_intro h fun _ _ hbroken =>
            emitErrorEvent_intro hbroken.toFailing nofun
      | redisError text | rpcError text | staleSidecarTurn text | queueError text | other text =>
          exact emitErrorEvent_intro (Broken.toFailing h) nofun

theorem streamDone_intro (h : Hot seen state now) :
    streamWp cfg (streamDone cfg turn) streamPost state now := by
  unfold streamWp streamDone
  rw [wp_bind, wp_getLocal, either_ok, wp_ite]
  split
  · rename_i hdone
    have hseen : seen = true := by
      refine h.seen_of_collector fun hcollector => ?_
      simp [hcollector] at hdone
    subst hseen
    rw [wp_bind]
    refine finalizeTurnPersist_spec.call monotone_forwards h ?_ fun _ _ _ herror => herror
    exact fun _ _ _ hfinished => emitDone_intro hfinished rfl
  · exact emitErrorEvent_intro h.broken.toFailing nofun

/-- `stream_turn` keeps to the rules whatever it is answered, and ends with an outcome. -/
theorem streamTurn_intro (h : Hot false state now) (hcodex : now.2.codex = none)
    (hmarked : now.2.marked = none) :
    streamWp cfg (streamTurn cfg turn) streamPost state now := by
  have hloop : streamWp cfg
      (forEach (streamEvent cfg turn) (generator (runTurn cfg turn.chatId) ()))
      eventLoopEnd state now := by
    unfold streamWp
    rw [wp_forEach]
    change Program.wp (overLocals (overLocals (execMonitor cfg))) (absorbs cfg turn) _ _ _
    refine (wp_generator (runTurn cfg turn.chatId) ()).mpr ?_
    refine (runTurn_spec turn.chatId).call monotone_absorbs ⟨h, hcodex, hmarked⟩ ?_
      fun _ _ _ herror => herror
    exact fun _ _ _ hended => hended
  unfold streamTurn
  unfold streamWp
  rw [wp_bind, wp_attempt]
  refine wp_mono monotone_forwards hloop ?_
  intro outcome state now houtcome
  match outcome with
  | .error error => exact streamFailed_intro houtcome
  | .ok (some .failed) => exact houtcome
  | .ok (some .done) | .ok none =>
      obtain ⟨seen, hhot⟩ := houtcome
      exact streamDone_intro hhot

/-- The loop of the execution over the frames. -/
theorem frameLoop_intro (h : Hot false {} now) (hcodex : now.2.codex = none)
    (hmarked : now.2.marked = none) :
    Async.wp (execMonitor cfg) (fun out _ _ => nomatch out)
      (forEach (forwardFrame cfg) (generator (streamTurn cfg turn) {})) frameLoopPost now.1
      now.2 := by
  rw [wp_forEach]
  change Program.wp (overLocals (execMonitor cfg)) (forwards cfg) _ _ _
  refine (wp_generator (streamTurn cfg turn) {}).mpr ?_
  refine wp_mono monotone_forwards (streamTurn_intro h hcodex hmarked) ?_
  intro outcome _ now houtcome
  cases outcome with
  | ok value => exact houtcome
  | error error => exact houtcome

end CodexServer
