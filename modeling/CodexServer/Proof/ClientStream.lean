import CodexServer.Proof.TurnTail

/-!
# What a client of a turn stream sees

A handler puts at most one frame made from the row after the frames of `tail`. When the row is read
decides whether that is the one terminal of the stream or a second one.
-/

namespace CodexServer

/-- The terminal frame is there, once and last. -/
def TerminalLast (frames : List ChatEvent) : Prop :=
  ∃ before last, frames = before ++ [last] ∧ last.isTerminal = true ∧
    ∀ frame ∈ before, frame.isTerminal = false

def NoTerminal (frames : List ChatEvent) : Prop := ∀ frame ∈ frames, frame.isTerminal = false

theorem NoTerminal.snoc {frames : List ChatEvent} (h : NoTerminal frames) {frame : ChatEvent}
    (hframe : frame.isTerminal = false) : NoTerminal (frames ++ [frame]) := by
  intro other hother
  rcases List.mem_append.mp hother with hold | hlast
  · exact h other hold
  · rwa [List.mem_singleton.mp hlast]

theorem NoTerminal.terminalLast {frames : List ChatEvent} (h : NoTerminal frames)
    {frame : ChatEvent} (hframe : frame.isTerminal = true) : TerminalLast (frames ++ [frame]) :=
  ⟨frames, frame, rfl, hframe, h⟩

theorem TerminalLast.filter_isTerminal {frames : List ChatEvent} (h : TerminalLast frames) :
    (frames.filter ChatEvent.isTerminal).length = 1 := by
  obtain ⟨before, last, rfl, hlast, hbefore⟩ := h
  have hnone : before.filter ChatEvent.isTerminal = [] := by
    simpa [List.filter_eq_nil_iff] using hbefore
  simp [hnone, hlast]

/-- A terminal row always has its frame, and it is a terminal one. -/
theorem terminalFromStatus_of_isTerminal (messages : Nat → Option AssistantMessage)
    {turn : TurnRow} (h : turn.status.isTerminal = true) :
    ∃ frame, terminalFromStatus messages turn = some frame ∧ frame.isTerminal = true := by
  cases hstatus : turn.status with
  | starting | running => simp [hstatus, TurnStatus.isTerminal] at h
  | completed =>
      cases hmessage : turn.assistantMessageId.bind messages with
      | none => exact ⟨_, by simp only [terminalFromStatus, hstatus, hmessage]; rfl, rfl⟩
      | some message => exact ⟨_, by simp only [terminalFromStatus, hstatus, hmessage]; rfl, rfl⟩
  | failed | cancelled => exact ⟨_, by simp only [terminalFromStatus, hstatus]; rfl, rfl⟩

theorem terminalFromStatus_of_not_isTerminal (messages : Nat → Option AssistantMessage)
    {turn : TurnRow} (h : turn.status.isTerminal = false) :
    terminalFromStatus messages turn = none := by
  cases hstatus : turn.status with
  | starting | running => simp only [terminalFromStatus, hstatus]
  | completed | failed | cancelled => simp [hstatus, TurnStatus.isTerminal] at h

/-! ### Steps -/

/-- A cursor `tail` holds is one XREAD answers, and so the reading does not end in an exception. -/
def Tail.Accepted : Tail → Prop
  | reading cursor | blocked cursor _ | checking cursor | yielding cursor _ => AcceptedCursor cursor
  | returned => True
  | raised => False

theorem Tail.accepted_start {afterId : String} (h : afterId = "" ∨ AcceptedCursor afterId) :
    (Tail.start afterId).Accepted := by
  unfold start
  split_ifs with hempty
  · exact .zero
  · exact h.resolve_left hempty

theorem Tail.Accepted.step {log : TurnLog} {status : Option TurnStatus} {tail next : Tail}
    {event : Option ChatEvent} (haccepted : tail.Accepted)
    (hstep : tail.step log status = some (next, event)) : next.Accepted := by
  cases tail with
  | reading cursor =>
      obtain ⟨bound, hbound⟩ := Option.isSome_iff_exists.mp (readBound_isSome log haccepted)
      simp only [Tail.step, hbound, Option.some.injEq, Prod.mk.injEq] at hstep
      obtain ⟨rfl, -⟩ := hstep
      exact haccepted
  | blocked cursor bound =>
      cases hentries : (bound.after log).take 64 <;>
        simp only [Tail.step, hentries, Option.some.injEq, Prod.mk.injEq] at hstep <;>
        obtain ⟨rfl, -⟩ := hstep <;> exact haccepted
  | checking cursor =>
      simp only [Tail.step] at hstep
      split_ifs at hstep <;> simp only [Option.some.injEq, Prod.mk.injEq] at hstep <;>
        obtain ⟨rfl, -⟩ := hstep
      · trivial
      · exact haccepted
  | yielding cursor entries =>
      cases entries with
      | nil =>
          simp only [Tail.step, Option.some.injEq, Prod.mk.injEq] at hstep
          obtain ⟨rfl, -⟩ := hstep
          exact haccepted
      | cons entry rest =>
          simp only [Tail.step] at hstep
          split_ifs at hstep <;> simp only [Option.some.injEq, Prod.mk.injEq] at hstep <;>
            obtain ⟨rfl, -⟩ := hstep
          · trivial
          · exact .text entry.1
  | returned => simp [Tail.step] at hstep
  | raised => exact haccepted.elim

/-- A step of `tail` yields a frame, a terminal one just when it returns, or yields none and returns
only on a terminal row. -/
theorem Tail.step_yields {log : TurnLog} {status : TurnStatus} {tail next : Tail}
    {event : Option ChatEvent} (h : tail.step log (some status) = some (next, event)) :
    (event = none ∧ (next = .returned → status.isTerminal = true)) ∨
    ∃ frame, event = some frame ∧ (next = .returned ↔ frame.isTerminal = true) := by
  cases tail with
  | reading cursor =>
      cases hbound : readBound log cursor <;>
        simp only [Tail.step, hbound, Option.some.injEq, Prod.mk.injEq] at h <;>
        exact Or.inl ⟨h.2.symm, by simp [← h.1]⟩
  | blocked cursor bound =>
      cases hentries : (bound.after log).take 64 <;>
        simp only [Tail.step, hentries, Option.some.injEq, Prod.mk.injEq] at h <;>
        exact Or.inl ⟨h.2.symm, by simp [← h.1]⟩
  | checking cursor =>
      simp only [Tail.step, Option.all_some] at h
      split_ifs at h with hstatus <;> simp only [Option.some.injEq, Prod.mk.injEq] at h
      · exact Or.inl ⟨h.2.symm, fun _ => hstatus⟩
      · exact Or.inl ⟨h.2.symm, by simp [← h.1]⟩
  | yielding cursor entries =>
      cases entries with
      | nil =>
          simp only [Tail.step, Option.some.injEq, Prod.mk.injEq] at h
          exact Or.inl ⟨h.2.symm, by simp [← h.1]⟩
      | cons entry rest =>
          simp only [Tail.step] at h
          split_ifs at h with hterminal <;> simp only [Option.some.injEq, Prod.mk.injEq] at h
          · exact Or.inr ⟨_, h.2.symm, by simp [← h.1, hterminal]⟩
          · exact Or.inr ⟨_, h.2.symm, by simp [← h.1, hterminal]⟩
  | returned => simp [Tail.step] at h
  | raised => simp [Tail.step] at h

/-- What `tail` leaves behind when it returns: its terminal frame, or a turn that is over. -/
def Left (turn : TurnRow) (yields : List ChatEvent) : Prop :=
  TerminalLast yields ∨ (NoTerminal yields ∧ turn.status.isTerminal = true)

/-- What has been yielded when the handler is where it is. -/
def HandlerInv (turn : TurnRow) (yields : List ChatEvent) : Handler → Prop
  | .starting => yields = []
  | .loading afterId | .loadingActive afterId =>
      yields = [] ∧ (afterId = "" ∨ AcceptedCursor afterId)
  | .loadingLatest => yields = [] ∧ turn.status.isTerminal = true
  | .tailing tail => tail.Accepted ∧ (tail = .returned → Left turn yields) ∧
      (tail ≠ .returned → NoTerminal yields)
  | .refreshing => Left turn yields
  | .ended => TerminalLast yields
  | .raised => False

/-- The row is read again after a terminal frame of the stream only as long as it is not over. -/
def RereadBeforeCommit (system : StreamSystem Handler) : StreamSystem.Action → Bool
  | .read =>
      match system.reader with
      | .refreshing => !(system.yields.any ChatEvent.isTerminal &&
          system.world.turn.status.isTerminal)
      | _ => true
  | _ => true

theorem HandlerInv.mono {turn later : TurnRow} {yields : List ChatEvent} {handler : Handler}
    (h : HandlerInv turn yields handler)
    (hover : turn.status.isTerminal = true → later.status.isTerminal = true) :
    HandlerInv later yields handler := by
  have hleft : Left turn yields → Left later yields := Or.imp_right (And.imp_right hover)
  cases handler with
  | starting | loading | loadingActive | ended | raised => exact h
  | loadingLatest => exact ⟨h.1, hover h.2⟩
  | tailing tail => exact ⟨h.1, fun hreturned => hleft (h.2.1 hreturned), h.2.2⟩
  | refreshing => exact hleft h

theorem noTerminal_nil : NoTerminal [] := by simp [NoTerminal]

/-- The frame made from a terminal row ends a stream that has no terminal frame yet. -/
theorem NoTerminal.end_of_row {messages : Nat → Option AssistantMessage} {turn : TurnRow}
    {yields : List ChatEvent} (h : NoTerminal yields) (hover : turn.status.isTerminal = true) :
    TerminalLast (yields ++ (terminalFromStatus messages turn).toList) := by
  obtain ⟨frame, hframe, hterminal⟩ := terminalFromStatus_of_isTerminal messages hover
  rw [hframe]
  exact h.terminalLast hterminal

theorem TerminalLast.any_isTerminal {frames : List ChatEvent} (h : TerminalLast frames) :
    frames.any ChatEvent.isTerminal = true := by
  obtain ⟨before, last, rfl, hlast, -⟩ := h
  simp [hlast]

/-- A step of `tail` inside the handler. -/
theorem HandlerInv.tail {log : TurnLog} {turn : TurnRow} {yields : List ChatEvent}
    {tail next : Tail} {event : Option ChatEvent} (h : HandlerInv turn yields (.tailing tail))
    (hstep : tail.step log (some turn.status) = some (next, event)) :
    HandlerInv turn (yields ++ event.toList) (.tailing next) := by
  have hnone : NoTerminal yields := h.2.2 (by rintro rfl; simp [Tail.step] at hstep)
  refine ⟨h.1.step hstep, fun hreturned => ?_, fun hgoing => ?_⟩ <;>
    rcases Tail.step_yields hstep with ⟨rfl, hover⟩ | ⟨frame, rfl, hframe⟩
  · exact Or.inr ⟨by simpa using hnone, hover hreturned⟩
  · exact Or.inl (hnone.terminalLast (hframe.mp hreturned))
  · simpa using hnone
  · exact hnone.snoc (by simpa using mt hframe.mpr hgoing)

theorem handlerInv_step {system next : StreamSystem Handler} {action : StreamSystem.Action}
    (hinv : HandlerInv system.world.turn system.yields system.reader)
    (hallowed : RereadBeforeCommit system action = true)
    (hstep : system.handlerStep action = some next) :
    HandlerInv next.world.turn next.yields next.reader := by
  cases action with
  | publish id =>
      obtain ⟨world, hpublish, rfl⟩ := Option.map_eq_some_iff.mp hstep
      obtain ⟨event, rest, hid, -, rfl⟩ := StreamWorld.publish_cases hpublish
      exact hinv
  | finalize now =>
      obtain ⟨world, hfinalize, rfl⟩ := Option.map_eq_some_iff.mp hstep
      obtain ⟨turn, -, -, hover, rfl⟩ := StreamWorld.finalize_cases hfinalize
      exact hinv.mono fun _ => hover
  | read =>
      obtain ⟨⟨handler, event⟩, hread, rfl⟩ := Option.map_eq_some_iff.mp hstep
      simp only
      cases hreader : system.reader with
      | starting =>
          simp only [hreader, HandlerInv] at hinv
          simp only [hreader, Handler.step, Option.some.injEq, Prod.mk.injEq] at hread
          obtain ⟨rfl, rfl⟩ := hread
          refine ⟨Tail.accepted_start (Or.inl rfl), by simp [Tail.start], fun _ => ?_⟩
          rw [hinv]
          exact noTerminal_nil.snoc rfl
      | loading afterId =>
          simp only [hreader, HandlerInv] at hinv
          simp only [hreader, Handler.step] at hread
          split_ifs at hread with hover <;>
            simp only [Option.some.injEq, Prod.mk.injEq] at hread <;> obtain ⟨rfl, rfl⟩ := hread
          · exact (hinv.1 ▸ noTerminal_nil).end_of_row hover
          · exact ⟨Tail.accepted_start hinv.2, by simp [Tail.start], fun _ => by
              simpa [hinv.1] using noTerminal_nil⟩
      | loadingActive afterId =>
          simp only [hreader, HandlerInv] at hinv
          simp only [hreader, Handler.step] at hread
          split_ifs at hread with hactive <;>
            simp only [Option.some.injEq, Prod.mk.injEq] at hread <;> obtain ⟨rfl, rfl⟩ := hread
          · exact ⟨Tail.accepted_start hinv.2, by simp [Tail.start], fun _ => by
              simpa [hinv.1] using noTerminal_nil⟩
          · exact ⟨by simpa using hinv.1, by simpa using hactive⟩
      | loadingLatest =>
          simp only [hreader, HandlerInv] at hinv
          simp only [hreader, Handler.step, Option.some.injEq, Prod.mk.injEq] at hread
          obtain ⟨rfl, rfl⟩ := hread
          exact (hinv.1 ▸ noTerminal_nil).end_of_row hinv.2
      | tailing tail =>
          rw [hreader] at hinv
          cases tail with
          | returned =>
              simp only [hreader, Handler.step, Option.some.injEq, Prod.mk.injEq] at hread
              obtain ⟨rfl, rfl⟩ := hread
              simpa [HandlerInv] using hinv.2.1 rfl
          | raised => exact hinv.1.elim
          | _ =>
              rw [hreader] at hread
              obtain ⟨⟨tail, frame⟩, htail, heq⟩ := Option.map_eq_some_iff.mp hread
              simp only [Prod.mk.injEq] at heq
              obtain ⟨rfl, rfl⟩ := heq
              exact hinv.tail htail
      | refreshing =>
          simp only [hreader, HandlerInv] at hinv
          simp only [hreader, Handler.step, Option.some.injEq, Prod.mk.injEq] at hread
          obtain ⟨rfl, rfl⟩ := hread
          rcases hinv with hlast | ⟨hnone, hover⟩
          · have hactive : system.world.turn.status.isTerminal = false := by
              simpa [RereadBeforeCommit, hreader, hlast.any_isTerminal] using hallowed
            rw [terminalFromStatus_of_not_isTerminal _ hactive]
            simpa [HandlerInv] using hlast
          · exact hnone.end_of_row hover
      | ended => simp [hreader, Handler.step] at hread
      | raised => simp [hreader, HandlerInv] at hinv

/-! ### Runs -/

/-- The cursor of a request is empty or one that XREAD answers. -/
def StreamRequest.Accepted : StreamRequest → Prop
  | runTurn => True
  | tailTurn afterId | tailChat afterId => afterId = "" ∨ AcceptedCursor afterId

/-- A handler in a world, before its first step. -/
def handlerFrom (world : StreamWorld) (request : StreamRequest) : StreamSystem Handler :=
  ⟨world, .start request, []⟩

theorem handlerInv_start {world : StreamWorld} {request : StreamRequest}
    (h : request.Accepted) :
    HandlerInv world.turn [] (handlerFrom world request).reader := by
  cases request with
  | runTurn => rfl
  | tailTurn afterId | tailChat afterId => exact ⟨rfl, h⟩

/-- **One terminal per client stream.** If the cursor is one XREAD answers and the row is not read
again, after a terminal frame of the stream, when the outcome is already committed, then the frames
of a handler that has ended have one terminal frame, the last, and no handler ends by an exception. -/
theorem one_terminal_per_stream {world : StreamWorld} {request : StreamRequest}
    {system : StreamSystem Handler} (haccepted : request.Accepted)
    (hreach : Transition.Reach StreamSystem.handlerStep (RereadBeforeCommit · ·)
      (handlerFrom world request) system) :
    (system.reader = .ended → TerminalLast system.yields) ∧ system.reader ≠ .raised := by
  have hinv := hreach.invariant
    (fun system => HandlerInv system.world.turn system.yields system.reader)
    (handlerInv_start haccepted) fun _ _ _ => handlerInv_step
  refine ⟨fun hended => ?_, fun hraised => ?_⟩
  · rwa [hended] at hinv
  · rwa [hraised] at hinv

/-- The handler is done with the row before the worker commits the outcome. -/
def promptHandlerSchedule : List StreamSystem.Action :=
  [.read, .publish (toLex (1, 0)), .publish (toLex (1, 1)), .read, .read, .read, .read, .read, .read,
    .finalize 103]

theorem one_terminal_per_stream_prompt : ∃ system,
    Transition.run StreamSystem.handlerStep (handlerFrom twoFrameWorld .runTurn)
      promptHandlerSchedule = some system ∧ system.yields.length = 3 ∧
    TerminalLast system.yields := by
  have hallowed : Transition.RunAllowed StreamSystem.handlerStep (RereadBeforeCommit · ·)
      (handlerFrom twoFrameWorld .runTurn) promptHandlerSchedule := by decide
  exact ⟨_, rfl, rfl,
    (one_terminal_per_stream (show StreamRequest.Accepted .runTurn from trivial)
      (Transition.reach_of_run rfl hallowed)).1 rfl⟩

/-- The worker commits while the handler is on its way from the done frame to the row. -/
def slowHandlerSchedule : List StreamSystem.Action :=
  [.read, .publish (toLex (1, 0)), .publish (toLex (1, 1)), .read, .read, .read, .read,
    .finalize 103, .read, .read]

/-- The client is sent a second done frame. -/
theorem two_terminals_per_stream : ∃ system,
    Transition.run StreamSystem.handlerStep (handlerFrom twoFrameWorld .runTurn)
      slowHandlerSchedule = some system ∧ system.reader = .ended ∧
    (system.yields.filter ChatEvent.isTerminal).length = 2 ∧ ¬ TerminalLast system.yields := by
  refine ⟨_, rfl, rfl, rfl, fun hlast => ?_⟩
  exact absurd hlast.filter_isTerminal (by decide)

end CodexServer
