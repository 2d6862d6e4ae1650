import CodexServer.Proof.ErrorTexts
import CodexServer.Proof.ExecutionConduct
import CodexServer.Proof.Slots

/-!
# What a request answers of errors

The code that finalises a turn from outside has texts of its own, and two that come from elsewhere:
what the queue raises, and the turn that the sidecar says it has.
-/

open Async

namespace CodexServer

/-- An answer that a handler makes no text of, or none that leaks. -/
def Quiet (op : Op) : Except Fault op.Val → Prop
  | .ok _ => True
  | .error fault => op.tells fault = true → ¬ fault.Leaks

section

variable {α : Type} {Inv : Unit → Prop} {prepared : PreparedRunTurn}

/-- What is raised ends the handler and is not made a frame of. -/
abbrev DiscreetControl (returns : α → Prop) (code : ControlCode α) : Prop :=
  Safe Op.Redacted Quiet (fun _ => True) (fun _ => True) returns (fun _ => True) code

theorem discreet_ask (op : Op) (hop : op.Redacted) :
    DiscreetControl (fun _ => True) (await op : ControlCode op.Val) :=
  safe_await hop (fun _ _ => trivial) fun _ _ => trivial

theorem discreet_orOnRedis {returns : α → Prop} {code : ControlCode α} {default : α}
    (h : DiscreetControl returns code) (hdefault : returns default) :
    DiscreetControl returns (orOnRedisError code default) := by
  refine h.tryCatch fun error _ => ?_
  split
  · exact safe_pure hdefault
  · exact safe_throw trivial

theorem discreet_askRedis {op : Op} {default : op.Val} (hop : op.Redacted) :
    DiscreetControl (fun _ => True) (orOnRedisError (await op : ControlCode op.Val) default) :=
  discreet_orOnRedis (discreet_ask op hop) trivial

/-! ### Recovery -/

theorem discreet_finalizeOrphan (turn : TurnRow) :
    DiscreetControl (fun _ => True) (Recovery.finalizeOrphan turn) := by
  have hdetail : RedactedOutcome (some "orphan_heartbeat", some "no heartbeat for >120.0s") :=
    redactedOutcome_some (by decide) (by decide)
  refine Safe.andThen (discreet_ask (.finalizeOnce ..) hdetail) fun _ => ?_
  exact Safe.andThen (discreet_askRedis trivial) fun _ => safe_pure trivial

theorem discreet_finalizeOrphans (turns : List TurnRow) :
    DiscreetControl (fun _ => True) (Recovery.finalizeOrphans turns) := by
  induction turns with
  | nil => exact safe_pure trivial
  | cons turn rest ih => exact (discreet_finalizeOrphan turn).andThen fun _ => ih

theorem discreet_reconcileStaleTurns :
    DiscreetControl (fun _ => True) Recovery.reconcileStaleTurns := by
  refine Safe.andThen (discreet_ask (.findStaleActive _) trivial) fun stale => ?_
  exact (discreet_finalizeOrphans stale).andThen fun _ => safe_pure trivial

theorem discreet_reconcileIfStale (turn : TurnRow) :
    DiscreetControl (fun _ => True) (Recovery.reconcileIfStale turn) := by
  refine Safe.andThen (discreet_ask .clock trivial) fun now => Safe.ite (safe_pure trivial) ?_
  exact (discreet_finalizeOrphan turn).andThen fun _ => safe_pure trivial

theorem discreet_reconcileRead (turnId : Nat) :
    DiscreetControl (fun _ => True) (Recovery.reconcileRead turnId) := by
  refine Safe.andThen (discreet_ask (.getTurn _) trivial) fun found => ?_
  split
  · exact safe_pure trivial
  · exact Safe.ite (discreet_reconcileIfStale _) (safe_pure trivial)

theorem discreet_leaseExpiredMessage (turnId : Nat) :
    DiscreetControl (fun _ => True) (Recovery.leaseExpiredMessage turnId) := by
  have hdetail : RedactedOutcome (some "lease_expired", some "worker lease expired without release") :=
    redactedOutcome_some (by decide) (by decide)
  have hexpired : DiscreetControl (fun _ => True) (Recovery.finalizeLeaseExpired turnId) := by
    refine Safe.andThen (discreet_ask (.getTurn _) trivial) fun found => ?_
    split
    · exact safe_pure trivial
    · refine Safe.ite ?_ (safe_pure trivial)
      refine Safe.andThen (discreet_ask (.finalizeOnce ..) hdetail) fun _ => ?_
      exact Safe.andThen (discreet_askRedis trivial) fun _ => safe_pure trivial
  refine hexpired.tryCatch fun error _ => ?_
  split
  · exact safe_throw trivial
  · exact safe_pure trivial

theorem discreet_releaseLocal (holder : Nat) (turnIds : List Nat) :
    DiscreetControl (fun _ => True) (Lease.releaseLocal holder turnIds) := by
  induction turnIds with
  | nil => exact safe_pure trivial
  | cons turnId rest ih =>
      have hrelease : DiscreetControl (fun _ => True) (do
          let released ← await (.releaseLease turnId holder)
          await (.discardActiveLease turnId holder)
          pure released : ControlCode Bool) := by
        refine Safe.andThen (discreet_ask (.releaseLease ..) trivial) fun released => ?_
        exact Safe.andThen (discreet_ask (.discardActiveLease ..) trivial) fun _ =>
          safe_pure trivial
      exact (discreet_orOnRedis hrelease trivial).andThen fun _ => ih.andThen fun _ =>
        safe_pure trivial

/-! ### The `run_turn` handler -/

theorem redacted_turnBusy {detail : String} (h : ¬ Leaks detail) :
    (Handler.turnBusy detail).Redacted := redacted_errorEvent (by decide) h

theorem redacted_staleActiveTurn : Handler.staleActiveTurn.Redacted :=
  redacted_errorEvent (by decide) (by decide)

/-- The events that a part of the handler may answer with. -/
def RedactedReply (reply : Option ChatEvent) : Prop := ∀ event ∈ reply, event.Redacted

theorem redactedReply_some {event : ChatEvent} (h : event.Redacted) :
    RedactedReply (some event) := by
  rintro _ ⟨⟩
  exact h

theorem discreet_handleStaleTurn (hactual : ¬ Leaks prepared.actualTurnId) (turn : TurnRow) :
    DiscreetControl (fun _ => True) (Handler.handleStaleTurn prepared turn) := by
  have hdetail : RedactedOutcome (some CodexErrorCode.staleActiveTurn,
      some ("sidecar held " ++ prepared.actualTurnId)) :=
    redactedOutcome_some (by decide) ((leaks_append_left _ (by decide) _).not.mpr hactual)
  refine Safe.andThen (Safe.ite ?_ (safe_pure trivial)) fun _ => ?_
  · refine (discreet_ask (.external .sendInterrupt) trivial).tryCatch fun error _ => ?_
    split
    · exact safe_pure trivial
    · exact Safe.ite (safe_pure trivial) (safe_throw trivial)
  · refine Safe.andThen (Safe.ite (safe_pure trivial) ?_) fun _ => ?_
    · exact discreet_askRedis trivial
    · exact Safe.andThen (discreet_ask (.finalizeOnce ..) hdetail) fun _ => safe_pure trivial

theorem discreet_trySteerActiveTurn (hactual : ¬ Leaks prepared.actualTurnId) (active : TurnRow)
    (codexTurnId : String) :
    DiscreetControl RedactedReply (Handler.trySteerActiveTurn prepared active codexTurnId) := by
  have hsteer : DiscreetControl (fun _ => True) (Handler.sendSteer prepared codexTurnId) := by
    refine Safe.andThen (discreet_ask (.external .sendSteer) trivial) fun _ => ?_
    refine Safe.ite ?_ (safe_pure trivial)
    exact Safe.andThen (discreet_askRedis trivial) fun _ => safe_pure trivial
  refine hsteer.attempt.bind fun outcome _ => ?_
  split
  · exact (discreet_handleStaleTurn hactual active).andThen fun _ =>
      safe_pure (redactedReply_some redacted_staleActiveTurn)
  · exact Safe.ite (safe_pure nofun) (safe_throw trivial)
  · exact safe_pure nofun
  · refine Safe.andThen (discreet_ask (.external .appendSteered) trivial) fun _ => ?_
    refine Safe.andThen (discreet_askRedis trivial) fun _ => ?_
    exact safe_pure (redactedReply_some (redacted_of_silent rfl))

theorem discreet_tryInterruptActiveTurn (hactual : ¬ Leaks prepared.actualTurnId)
    (active : TurnRow) : DiscreetControl (fun reply => RedactedReply reply.2)
      (Handler.tryInterruptActiveTurn prepared active) := by
  have hinterrupt : DiscreetControl (fun _ => True) (Handler.sendInterrupt prepared active) := by
    refine Safe.ite ?_ (safe_pure trivial)
    exact Safe.andThen (discreet_ask (.external .sendInterrupt) trivial) fun _ => safe_pure trivial
  refine hinterrupt.attempt.bind fun outcome _ => ?_
  split
  · exact (discreet_handleStaleTurn hactual active).andThen fun _ =>
      safe_pure (redactedReply_some redacted_staleActiveTurn)
  · exact Safe.ite (safe_pure nofun) (safe_throw trivial)
  · exact safe_pure nofun

theorem discreet_handleRunningTurn (hactual : ¬ Leaks prepared.actualTurnId) (active : TurnRow)
    (codexTurnId : String) :
    DiscreetControl RedactedReply (Handler.handleRunningTurn prepared active codexTurnId) := by
  have hbusy := redactedReply_some
    (redacted_turnBusy (show ¬ Leaks "previous turn still finishing — retry shortly" by decide))
  refine Safe.ite (safe_pure hbusy) ?_
  refine (discreet_trySteerActiveTurn hactual active codexTurnId).bind fun reply hreply => ?_
  split
  · exact safe_pure hreply
  · refine (discreet_tryInterruptActiveTurn hactual active).bind fun interrupt hinterrupt => ?_
    obtain ⟨interrupted, answered⟩ := interrupt
    dsimp only
    split
    · exact safe_pure hinterrupt
    · exact Safe.ite (safe_pure nofun) (safe_pure hbusy)

theorem discreet_handleActiveTurn (hactual : ¬ Leaks prepared.actualTurnId) :
    DiscreetControl RedactedReply (Handler.handleActiveTurn prepared) := by
  refine Safe.andThen (discreet_ask (.getActiveForChat _) trivial) fun found => ?_
  split
  · exact safe_pure nofun
  · next active =>
      refine (discreet_reconcileIfStale active).andThen fun stale => Safe.ite (safe_pure nofun) ?_
      split
      · exact safe_pure (redactedReply_some (redacted_turnBusy (by decide)))
      · refine Safe.andThen (discreet_askRedis trivial) fun alive => ?_
        refine Safe.ite (discreet_handleRunningTurn hactual active _) ?_
        have hdetail : RedactedOutcome
            (some "lease_expired", some "worker lease missing — runner dead") :=
          redactedOutcome_some (by decide) (by decide)
        refine Safe.andThen (Safe.andThen (discreet_ask (.finalizeOnce ..) hdetail) fun _ => ?_)
          fun _ => safe_pure nofun
        exact Safe.andThen (discreet_askRedis trivial) fun _ => safe_pure trivial

theorem discreet_createWebTurn :
    DiscreetControl (fun created => ∀ event, created = .error event → event.Redacted)
      (Handler.createWebTurn prepared) := by
  refine Safe.andThen (discreet_ask (.createTurn _) trivial) fun created => ?_
  split
  · refine safe_pure ?_
    rintro _ ⟨⟩
    exact redacted_turnBusy (by decide)
  · exact safe_pure nofun

/-- The text of what the queue raises goes into the row and into the frame. -/
theorem discreet_enqueueTurn (turn : TurnRow) :
    DiscreetControl RedactedReply (Handler.enqueueTurn turn) := by
  have hawait : Safe Op.Redacted Quiet (fun _ => True) (fun _ => True) (fun _ => True)
      (fun error => ∀ fault, error = .fault fault → (Op.enqueue turn.id).tells fault = true →
        ¬ fault.Leaks)
      (await (.enqueue turn.id) : ControlCode Unit) := by
    refine safe_await trivial (fun _ _ => trivial) fun fault hfault found hfound => ?_
    cases hfound
    exact hfault
  have hfailed : ∀ text, ¬ Leaks text → DiscreetControl RedactedReply (do
      let _ ← await (.finalizeOnce turn.id .failed (some "enqueue_failed") (some text))
      pure (some (errorEvent CodexErrorCode.codexError (some ("enqueue failed: " ++ text)))) :
        ControlCode (Option ChatEvent)) := by
    intro text htext
    have hframe := (leaks_append_left "enqueue failed: " (by decide) text).not.mpr htext
    refine Safe.andThen (discreet_ask (.finalizeOnce ..)
      (redactedOutcome_some (by decide) htext)) fun _ => ?_
    exact safe_pure (redactedReply_some (redacted_errorEvent (by decide) hframe))
  refine hawait.attempt.bind fun outcome houtcome => ?_
  split
  · exact safe_pure nofun
  · exact hfailed _ (houtcome _ rfl rfl)
  · exact hfailed _ (houtcome _ rfl rfl)
  · exact hfailed _ (houtcome _ rfl rfl)
  · exact safe_throw trivial

theorem discreet_handlerRunTurn (hactual : ¬ Leaks prepared.actualTurnId) :
    DiscreetControl RedactedReply (Handler.runTurn prepared) := by
  refine (discreet_handleActiveTurn hactual).bind fun reply hreply => ?_
  split
  · exact safe_pure hreply
  · refine discreet_createWebTurn.bind fun created hcreated => ?_
    split
    · exact safe_pure (redactedReply_some (hcreated _ rfl))
    · exact discreet_enqueueTurn _

theorem safe_thread {code : ControlCode α} {returns : α → Prop} (h : DiscreetControl returns code) :
    code.thread.Safe Op.Redacted Quiet (fun _ => True) (fun _ => True) :=
  Program.safe_bind.mpr ((h () trivial).mono fun _ _ => trivial)

/-- **Recovery and the handlers** store no outcome that leaks. -/
theorem safe_code {kind : ControlKind} (hkind : kind.Redacted) :
    kind.code.Safe Op.Redacted Quiet (fun _ => True) (fun _ => True) := by
  cases kind with
  | handler prepared => exact safe_thread (discreet_handlerRunTurn hkind)
  | sweep => exact safe_thread discreet_reconcileStaleTurns
  | inline turnId => exact safe_thread (discreet_reconcileRead turnId)
  | listener turnId acquisition => exact safe_thread (discreet_leaseExpiredMessage turnId)
  | shutdown holder =>
      have hrelease : DiscreetControl (fun _ => True) (Lease.releaseAllLocal holder) :=
        Safe.andThen (discreet_ask (.activeLeases _) trivial) (discreet_releaseLocal holder)
      exact safe_thread hrelease

end

/-! ### The whole of `run_turn` -/

namespace ChatRPC

/-- An answer to a request that no text comes from that leaks. -/
def Quiet : (op : RequestOp) → Except Fault op.Val → Prop
  | .control op, answer => CodexServer.Quiet op answer
  | .reserveTurn _, .ok (.error limited) => ¬ Leaks limited.text
  | .prepareRunTurn, .ok prepared => ¬ Leaks prepared.actualTurnId
  | .terminalForTurnId _, .ok reply => RedactedReply reply
  | _, _ => True

/-- What is known of a request: that its answers were quiet so far, and that the last of them was of
its tail, so that what it yields now is a frame of the stream. -/
structure RequestHistory where
  quiet : Prop
  tailed : Prop

def requestMonitor : Monitor RequestOp RequestOp.Val Fault RequestHistory where
  allowed history
    | .yieldEvent event => history.quiet → history.tailed ∨ event.Redacted
    | .control op => history.quiet → op.Redacted
    | _ => True
  next history op answer := ⟨history.quiet ∧ Quiet op answer, ∃ turnId, op = .tail turnId⟩

section

variable {α β : Type} {returns : α → Prop} {later : β → Prop} {history : RequestHistory}

abbrev requestWp (code : RequestCode α)
    (post : Except Exn α → RequestLocals → RequestHistory → Prop) (locals : RequestLocals)
    (history : RequestHistory) : Prop :=
  Async.wp requestMonitor (fun out _ _ => nomatch out) code post locals history

/-- What a request yields is redacted, and what it returns is as stated. -/
def DiscreetRequest (returns : α → Prop) (code : RequestCode α) : Prop :=
  ∀ locals history, requestWp code
    (either (fun value _ history => history.quiet → returns value) fun _ _ _ => True) locals history

/-- Of a request that was answered otherwise nothing is said. -/
theorem wp_unquiet (program : Program RequestOp RequestOp.Val Fault Empty α)
    (hquiet : ¬ history.quiet) :
    program.wp requestMonitor (fun out _ _ => nomatch out) (fun _ history => ¬ history.quiet)
      history := by
  induction program generalizing history with
  | ret value => exact hquiet
  | call op next ih =>
      refine ⟨?_, fun answer => ih answer fun h => hquiet h.1⟩
      cases op with
      | yieldEvent | control => exact fun h => absurd h hquiet
      | reserveTurn | prepareRunTurn | tail | terminalForTurnId | decrActive | deleteActive =>
          exact trivial
  | emit out rest => exact nomatch out

theorem DiscreetRequest.bind {code : RequestCode α} {continuation : α → RequestCode β}
    (h : DiscreetRequest returns code)
    (hrest : ∀ value, returns value → DiscreetRequest later (continuation value)) :
    DiscreetRequest later (code >>= continuation) := by
  intro locals history
  refine (wp_bind _ _).mpr (wp_mono monotone_nothing (h locals history) ?_)
  intro outcome locals history houtcome
  cases outcome with
  | error error => exact trivial
  | ok value =>
      by_cases hquiet : history.quiet
      · exact hrest value (houtcome hquiet) locals history
      · refine Program.wp_mono monotone_nothing (fun result later hlater => ?_)
          (wp_unquiet (continuation value locals) hquiet)
        obtain ⟨outcome, _⟩ := result
        cases outcome with
        | ok => exact fun h => absurd h hlater
        | error => exact trivial

theorem discreetRequest_pure {value : α} (h : returns value) :
    DiscreetRequest returns (pure value) := fun _ _ _ => h

theorem discreetRequest_await (op : RequestOp) {returns : op.Val → Prop}
    (hop : ∀ history, requestMonitor.allowed history op)
    (hvalue : ∀ value, Quiet op (.ok value) → returns value) :
    DiscreetRequest returns (ChatRPC.await op) := fun _ history =>
  (Async.wp_await Exn.fault op).mpr ⟨hop history, fun value h => hvalue value h.2, fun _ => trivial⟩

theorem discreetRequest_yield {event : ChatEvent} (h : event.Redacted) :
    DiscreetRequest (fun _ => True) (yieldEvent event) :=
  discreetRequest_await (.yieldEvent event) (fun _ _ => .inr h) fun _ _ => trivial

theorem discreetRequest_control {code : ControlCode α} (h : DiscreetControl returns code) :
    DiscreetRequest returns (control code) := by
  have hprogram : ∀ (program : Program Op Op.Val Fault Empty (Except Exn α × Unit))
      (history : RequestHistory),
      program.Safe Op.Redacted CodexServer.Quiet (fun _ => True)
        (fun result => ∀ value, result.1 = .ok value → returns value) →
      program.wp (within requestMonitor) (fun out _ _ => nomatch out)
        (fun result history => history.quiet → ∀ value, result.1 = .ok value → returns value)
        history := by
    intro program
    induction program with
    | ret result => exact fun history h _ => h
    | call op next ih =>
        refine fun history h => ⟨fun _ => h.1, fun answer => ?_⟩
        by_cases hanswer : CodexServer.Quiet op answer
        · exact ih answer _ (h.2 answer hanswer)
        · rw [← wp_embed]
          refine Program.wp_mono monotone_nothing (fun result later hlater hquiet => ?_)
            (wp_unquiet (embed (next answer)) fun hquiet => hanswer hquiet.2)
          exact absurd hquiet hlater
    | emit out rest => exact nomatch out
  intro locals history
  refine wp_control.mpr (Program.wp_mono monotone_nothing (fun result later hlater => ?_)
    (hprogram (code ()) history ((h () trivial).mono fun _ hresult => hresult.2.1)))
  obtain ⟨outcome, _⟩ := result
  cases outcome with
  | ok value => exact fun hquiet => hlater hquiet value rfl
  | error => exact trivial

/-- What is yielded after an await of the tail is its frame. -/
theorem discreetRequest_forwardTail (turnId : Nat) (events : List ChatEvent) :
    DiscreetRequest (fun _ => True) (forwardTail turnId events) := by
  induction events with
  | nil => exact discreetRequest_await (.tail turnId) (fun _ => trivial) fun _ _ => trivial
  | cons event rest ih =>
      intro locals history
      refine (wp_bind _ _).mpr ((Async.wp_await Exn.fault (RequestOp.tail turnId)).mpr
        ⟨trivial, fun _ => ?_, fun _ => trivial⟩)
      refine (wp_bind _ _).mpr ((Async.wp_await Exn.fault (RequestOp.yieldEvent event)).mpr
        ⟨fun _ => .inl ⟨turnId, rfl⟩, fun _ => ?_, fun _ => trivial⟩)
      exact ih locals _

theorem discreetRequest_yieldTerminal (turnId : Nat) :
    DiscreetRequest (fun _ => True) (yieldTerminal turnId) := by
  refine (discreetRequest_await (.terminalForTurnId turnId) (fun _ => trivial)
    fun _ h => h).bind fun reply hreply => ?_
  split
  · exact discreetRequest_yield (hreply _ rfl)
  · exact discreetRequest_pure trivial

theorem discreetRequest_followTurn (request : RunTurnRequest) (turn : TurnRow) :
    DiscreetRequest (fun _ => True) (followTurn request turn) := by
  refine DiscreetRequest.bind (fun _ _ _ => trivial) fun _ (_ : True) => ?_
  refine (discreetRequest_yield (redacted_of_silent rfl)).bind fun _ _ => ?_
  exact (discreetRequest_forwardTail turn.id request.events).bind fun _ _ =>
    discreetRequest_yieldTerminal turn.id

theorem discreetRequest_admitted (request : RunTurnRequest) :
    DiscreetRequest (fun _ => True) (admitted request) := by
  refine (discreetRequest_await .prepareRunTurn (fun _ => trivial) fun _ h => h).bind
    fun prepared hactual => ?_
  refine (discreetRequest_control (discreet_handleActiveTurn hactual)).bind fun reply hreply => ?_
  split
  · exact discreetRequest_yield (hreply _ rfl)
  · refine (discreetRequest_control discreet_createWebTurn).bind fun created hcreated => ?_
    split
    · exact discreetRequest_yield (hcreated _ rfl)
    · refine (discreetRequest_control (discreet_enqueueTurn _)).bind fun queued hqueued => ?_
      split
      · exact discreetRequest_yield (hqueued _ rfl)
      · exact discreetRequest_followTurn request _

theorem discreetRequest_releaseOwned (kind : RateLimit.UserKind) :
    DiscreetRequest (fun _ => True) (releaseOwned kind) := by
  refine DiscreetRequest.bind (fun _ _ _ => trivial) fun locals (_ : True) => ?_
  split
  · exact discreetRequest_pure trivial
  · unfold releaseTurn
    split
    · exact discreetRequest_pure trivial
    · refine (discreetRequest_await .decrActive (fun _ => trivial) fun _ _ => trivial).bind
        fun remaining (_ : True) => ?_
      split
      · exact discreetRequest_await .deleteActive (fun _ => trivial) fun _ _ => trivial
      · exact discreetRequest_pure trivial

theorem DiscreetRequest.tryFinally {code : RequestCode Unit} {cleanup : RequestCode Unit}
    (h : DiscreetRequest (fun _ => True) code) (hcleanup : DiscreetRequest (fun _ => True) cleanup) :
    DiscreetRequest (fun _ => True) (Async.tryFinally code cleanup) := by
  intro locals history
  refine (wp_tryFinally _ _).mpr (wp_mono monotone_nothing (h locals history) ?_)
  intro outcome locals history _
  refine wp_mono monotone_nothing (hcleanup locals history) ?_
  intro cleaned locals history _
  cases cleaned with
  | error => exact trivial
  | ok =>
      cases outcome with
      | ok => exact fun _ => trivial
      | error => exact trivial

/-- **`run_turn`** yields redacted frames, those of its tail apart, which are the stream's. -/
theorem discreetRequest_runTurn (kind : RateLimit.UserKind) (request : RunTurnRequest) :
    DiscreetRequest (fun _ => True) (ChatRPC.runTurn kind request) := by
  unfold ChatRPC.runTurn
  split
  · exact discreetRequest_yield (redacted_errorEvent (by decide) (by decide))
  · refine (discreetRequest_await (.reserveTurn kind) (fun _ => trivial) fun _ h => h).bind
      fun reserved hreserved => ?_
    split
    · exact discreetRequest_yield (redacted_errorEvent (by decide) hreserved)
    · exact (discreetRequest_admitted request).tryFinally (discreetRequest_releaseOwned kind)

end

end ChatRPC

end CodexServer
