import CodexServer.Proof.StreamConduct

/-!
# An execution keeps to the rules

Around the stream stand the lock, the lease and the heartbeat; after it come the `except` clauses,
the teardown, the safety net and `finalize_once`. Whatever is answered on the way, the execution
awaits only what `ExecAllowed` allows, and its record ends as `ExecEnded` says.
-/

open Async

namespace CodexServer

variable {cfg : ExecConfig} {turn : TurnRow} {locals : ExecLocals} {history : ExecHistory}
  {op : Op} {failure : Fault}

abbrev execWp {α : Type} (cfg : ExecConfig) (code : ExecCode α)
    (post : Except Exn α → ExecLocals → ExecHistory → Prop) (locals : ExecLocals)
    (history : ExecHistory) : Prop :=
  Async.wp (execMonitor cfg) (fun out _ _ => nomatch out) code post locals history

abbrev ExecTriple {α : Type} (cfg : ExecConfig) (pre : ExecLocals → ExecHistory → Prop)
    (code : ExecCode α) (post : α → ExecLocals → ExecHistory → Prop)
    (raises : Exn → ExecLocals → ExecHistory → Prop) : Prop :=
  Triple (execMonitor cfg) (fun out _ _ => nomatch out) pre code post raises

theorem monotone_nothing {History : Type} :
    Program.Monotone (fun (out : Empty) (_ : History → Prop) (_ : History) => nomatch out) :=
  fun out => nomatch out

/-! ### Before the stream -/

/-- Nothing of the turn has been done yet. -/
structure Waiting (locals : ExecLocals) (history : ExecHistory) : Prop
    extends Streaming locals history where
  codex : history.codex = none
  marked : history.marked = none
  received : history.received = false
  collector : history.collector = {}
  partials : history.partials = []
  unpersisted : history.persisted = false

theorem Waiting.fault (h : Waiting locals history) (hop : op.isLeaseAcquisition = false) :
    Waiting locals (history.fault op failure) :=
  { h with skipped := (ExecHistory.fault_skipped hop).trans h.skipped }

theorem Waiting.failing (h : Waiting locals history) (hraised : history.swallowed op failure = false) :
    Failing locals (history.fault op failure) :=
  h.tracks.failing hraised h.released

theorem Waiting.hot (h : Waiting locals history) : Hot false {} (locals, history) :=
  { h with
    collector := h.collector.symm
    partials := h.partials.symm
    fresh := fun _ => ⟨rfl, rfl⟩
    marked := nofun }

/-- The execution leaves without an outcome because another one has the turn. -/
theorem Waiting.skips (h : Waiting locals history) (hlease : locals.leaseHolder = none)
    {record : ExecHistory} (hskipped : record.skipped = true)
    (hrequested : record.requested = history.requested)
    (happended : record.appended = history.appended)
    (hpersisted : record.persisted = history.persisted)
    (hreleased : record.released = history.released) :
    Concluded { locals with redeliverySkip := true } record := by
  have hquiet : record.hasTerminal = false := by
    simpa [ExecHistory.hasTerminal, happended] using h.quiet
  have hnone := Bool.or_eq_false_iff.mp (ExecHistory.hasTerminal_eq ▸ hquiet)
  exact {
    requested := hrequested.trans h.requested
    skip := hskipped.symm
    published := fun hpublished => by simp [h.published] at hpublished
    completed := fun hcompleted => by simp [h.status] at hcompleted
    cancelled := fun hcancelled => by simp [h.status] at hcancelled
    lease := fun holder hholder => by simp [hlease] at hholder
    done := fun _ hdone => by simp [hnone.1] at hdone
    error := fun _ herror => by simp [hnone.2] at herror
    persisted := fun _ hfinal => by simp [hpersisted, h.unpersisted] at hfinal
    released := hreleased.trans h.released
    outcome := Or.inl rfl }

/-- Without a terminal frame any failure status will do. -/
theorem Waiting.failed (h : Waiting locals history) (error : Option String × Option String) :
    Concluded { locals with terminalStatus := some .failed, terminalError := error } history := by
  have hnone := Bool.or_eq_false_iff.mp (ExecHistory.hasTerminal_eq ▸ h.quiet)
  exact {
    requested := h.requested
    skip := h.skip.trans h.skipped.symm
    published := h.tracks.published
    completed := fun hcompleted => absurd (Option.some.inj hcompleted) (by decide)
    cancelled := fun hcancelled => absurd (Option.some.inj hcancelled) (by decide)
    lease := h.tracks.lease
    done := fun _ hdone => by simp [hnone.1] at hdone
    error := fun _ herror => by simp [hnone.2] at herror
    persisted := fun _ hfinal => by simp [h.unpersisted] at hfinal
    released := h.released
    outcome := Or.inr rfl }

/-! ### The locked part -/

/-- How the locked part and its `except` clauses are left. -/
def lockedRaises : Exn → ExecLocals → ExecHistory → Prop := fun _ => Failing

theorem Settled.swallowed (h : Settled locals history) (hop : op.isLeaseAcquisition = false)
    (hraised : history.swallowed op failure = true) :
    Settled locals (history.fault op failure) where
  requested := h.requested
  skip := h.skip.trans (ExecHistory.fault_skipped hop).symm
  published := h.published
  completed := h.completed
  cancelled := h.cancelled
  lease holder hholder := ⟨(h.lease holder hholder).1,
    (ExecHistory.fault_skipped hop).trans (h.lease holder hholder).2⟩
  done hlate := h.done (by simpa [ExecHistory.fault, hraised] using hlate)
  error hlate := h.error (by simpa [ExecHistory.fault, hraised] using hlate)
  persisted htorn := h.persisted (by simpa [ExecHistory.fault, hraised] using htorn)

/-- The frames of the stream, with the connection to Codex around them. -/
theorem runCodexTurn_spec :
    ExecTriple cfg Waiting (runCodexTurn cfg turn) (fun _ => Concluded) lockedRaises := by
  intro locals history h
  unfold runCodexTurn
  refine (wp_await_bind _ _).mpr ⟨trivial, fun _ => ?_, fun _ => h.failing rfl⟩
  rw [wp_tryFinally, wp_bind]
  refine wp_mono monotone_nothing (frameLoop_intro h.hot h.codex h.marked) ?_
  intro outcome locals history houtcome
  cases outcome with
  | ok value =>
      exact (wp_await _).mpr ⟨trivial, fun _ => houtcome,
        fun _ => houtcome.toTracks.failing rfl houtcome.released⟩
  | error error =>
      exact (wp_await _).mpr ⟨trivial, fun _ => houtcome,
        fun _ => houtcome.toTracks.failing rfl houtcome.released⟩

/-- Before the lease is asked for. -/
structure Unleased (locals : ExecLocals) (history : ExecHistory) : Prop
    extends Waiting locals history where
  leased : history.leased = none
  holder : locals.leaseHolder = none

theorem Unleased.fault (h : Unleased locals history) (hop : op.isLeaseAcquisition = false) :
    Unleased locals (history.fault op failure) where
  toWaiting := h.toWaiting.fault hop
  leased := h.leased
  holder := h.holder

theorem Unleased.acquired (h : Unleased locals history) :
    Waiting locals (history.done cfg.turnId (.setLeaseNx cfg.turnId cfg.holder) true) :=
  { h with
    skipped := (Bool.or_false _).trans h.skipped
    quiet := h.quiet
    lease := fun holder hholder => by simp [h.holder] at hholder }

/-- The lease, the registry, the heartbeat and then the stream. -/
theorem withOutcome_acquired :
    ExecTriple cfg Unleased (withOutcome cfg turn .acquired) (fun _ => Concluded)
      lockedRaises := by
  intro locals history h
  unfold withOutcome Lease.acquire
  rw [wp_bind, wp_bind, wp_orOnRedisError]
  refine (wp_await _).mpr ⟨⟨rfl, rfl, h.leased, h.skipped⟩, fun acquired => ?_, fun failure => ?_⟩
  · cases acquired with
    | true =>
        have hwaiting : Waiting locals
            (history.done cfg.turnId (.setLeaseNx cfg.turnId cfg.holder) true) := h.acquired
        rw [either_ok, either_ok, if_pos rfl]
        refine (wp_await_bind _ _).mpr ⟨⟨rfl, rfl⟩, fun _ => ?_, fun _ => hwaiting.failing rfl⟩
        rw [wp_pure, either_ok, if_pos rfl, wp_bind, wp_modifyLocal, either_ok]
        have hheld : Waiting { locals with leaseHolder := some cfg.holder }
            (history.done cfg.turnId (.setLeaseNx cfg.turnId cfg.holder) true) :=
          { hwaiting with lease := fun holder hholder => hholder }
        refine (wp_await_bind _ _).mpr ⟨⟨rfl, rfl⟩, fun _ => ?_, fun _ => hheld.failing rfl⟩
        rw [wp_bind, wp_modifyLocal, either_ok]
        exact runCodexTurn_spec _ _ { hheld with }
    | false =>
        exact h.skips h.holder (Bool.or_true _) rfl rfl rfl rfl
  · cases failure with
    | redisError text =>
        exact h.skips h.holder (Bool.or_true _) rfl rfl rfl rfl
    | cancelled | timeout | rpcError | staleTurnStream | staleSidecarTurn | queueError | other =>
        exact h.failing rfl

theorem releaseActive_intro {outcome : Except Exn Unit} (chatId : Nat)
    (h : either (fun _ => Concluded) lockedRaises outcome locals history) :
    execWp cfg (do
      let _ ← Locks.releaseActive chatId cfg.turnId
      pure ())
      (either (fun _ => either (fun _ => Concluded) lockedRaises outcome)
        fun error => lockedRaises error) locals history := by
  unfold execWp Locks.releaseActive
  rw [wp_bind, wp_orOnRedisError]
  refine (wp_await _).mpr ⟨rfl, fun _ => h, fun failure => ?_⟩
  have htracks : Tracks locals history ∧ history.released = false := by
    cases outcome with
    | ok value => exact ⟨h.toTracks, h.released⟩
    | error error => exact ⟨h.toTracks, h.released⟩
  cases failure with
  | redisError text =>
      cases outcome with
      | ok value =>
          exact {
            toSettled := Settled.swallowed h.toSettled rfl rfl
            released := h.released
            outcome := h.outcome }
      | error error =>
          exact {
            toTracks := (Settled.swallowed (Raised.settled h.toRaised) rfl rfl).toTracks
            late := fun hterminal => Bool.or_eq_true_iff.mpr (Or.inl (h.late hterminal))
            torn := fun hpersisted => Bool.or_eq_true_iff.mpr (Or.inl (h.torn hpersisted))
            released := h.released }
  | cancelled | timeout | rpcError | staleTurnStream | staleSidecarTurn | queueError | other =>
      exact htracks.1.failing rfl htracks.2

/-- Someone holds the lock: another execution of the turn, or another turn. -/
theorem outcomeUnlocked_spec :
    ExecTriple cfg Unleased
      (do
        let outcome ← Locks.outcomeUnlocked turn.chatId cfg.turnId
        withOutcome cfg turn outcome)
      (fun _ => Concluded) lockedRaises := by
  intro locals history h
  unfold Locks.outcomeUnlocked Locks.activeLockValue
  rw [wp_bind, wp_bind, wp_orOnRedisError]
  refine (wp_await _).mpr ⟨h.leased, fun holder => ?_, fun failure => ?_⟩
  · rw [either_ok, either_ok, wp_pure, either_ok]
    by_cases hholder : holder = some cfg.turnId
    · rw [if_pos hholder]
      refine h.skips h.holder ?_ rfl rfl rfl rfl
      exact Bool.or_eq_true_iff.mpr (Or.inr (decide_eq_true hholder))
    · rw [if_neg hholder]
      have hrecord : (execMonitor cfg).next history (.getActive turn.chatId) (.ok holder)
          = history := by
        change { history with skipped := history.skipped || decide (holder = some cfg.turnId) } = _
        rw [decide_eq_false hholder, Bool.or_false]
      rw [hrecord]
      exact h.toWaiting.failed _
  · cases failure with
    | redisError text => exact (h.toWaiting.fault rfl).failed _
    | cancelled | timeout | rpcError | staleTurnStream | staleSidecarTurn | queueError | other =>
        exact h.failing rfl

theorem holdTurnLocks_spec :
    ExecTriple cfg Unleased (Locks.holdTurnLocks turn.chatId cfg.turnId (withOutcome cfg turn))
      (fun _ => Concluded) lockedRaises := by
  intro locals history h
  unfold Locks.holdTurnLocks Locks.tryAcquireActive
  rw [wp_bind, wp_orOnRedisError]
  refine (wp_await _).mpr ⟨rfl, fun acquired => ?_, fun failure => ?_⟩
  · cases acquired with
    | true =>
        rw [either_ok, either_ok, if_pos rfl, wp_tryFinally]
        refine wp_mono monotone_nothing (withOutcome_acquired _ _ h) ?_
        exact fun outcome _ _ houtcome => releaseActive_intro turn.chatId houtcome
    | false => exact outcomeUnlocked_spec _ _ h
  · cases failure with
    | redisError text => exact outcomeUnlocked_spec _ _ (h.fault rfl)
    | cancelled | timeout | rpcError | staleTurnStream | staleSidecarTurn | queueError | other =>
        exact h.failing rfl

/-! ### The `except` clauses -/

theorem Concluded.of_raised (h : Raised locals history) (hreleased : history.released = false)
    (houtcome : locals.terminalStatus.isSome) : Concluded locals history where
  toSettled := h.settled
  released := hreleased
  outcome := Or.inr houtcome

/-- The status of an execution that failed or was cancelled takes the place of any other. -/
theorem Failing.override (h : Failing locals history) (status : TerminalStatus) (cancelled : Bool)
    (error : Option String × Option String) (hstatus : status ≠ .completed)
    (hcancelled : status = .cancelled → cancelled) :
    Failing { locals with
      terminalStatus := some status, terminalError := error, cancelled := cancelled } history :=
  { h with
    completed := fun hcompleted => absurd (Option.some.inj hcompleted) hstatus
    cancelled := fun hstatus => hcancelled (Option.some.inj hstatus) }

/-- The frame of the crash handler: it is published, or what was raised stays on record. -/
theorem publishCrash_intro {code detail : String} (h : Failing locals history)
    (hstatus : locals.terminalStatus = some .failed) :
    execWp cfg (exceptException
      (do
        let _ ← publish cfg.turnId (errorEvent code (some detail))
        modifyLocal fun locals => { locals with terminalPublished := true })
      fun _ => pure ()) (fun _ => Concluded) locals history := by
  have hkeeps {record : ExecHistory} (hrecord : Failing locals record) :
      Concluded locals record := .of_raised hrecord.toRaised hrecord.released (by simp [hstatus])
  have hallowed : ExecAllowed cfg history (.xadd cfg.turnId (errorEvent code (some detail))) := by
    refine ⟨rfl, h.requested, fun hlate => ?_, Or.inl rfl, nofun⟩
    by_contra hterminal
    exact absurd (h.late (Bool.not_eq_false _ ▸ hterminal)) (Bool.eq_false_iff.mp hlate)
  unfold execWp publish
  rw [wp_exceptException, wp_bind, wp_bind]
  refine (wp_await _).mpr ⟨hallowed, fun rawId => ?_, fun failure => ?_⟩
  · rw [either_ok]
    refine (wp_await_bind _ _).mpr ⟨rfl, fun _ => ?_, fun failure => ?_⟩
    · have hconcluded := h.toTracks.concluded h.late h.released
        (rfl : (errorEvent code (some detail)).isTerminal) fun _ => h.torn
      exact { hconcluded with
        completed := fun hcompleted =>
          absurd (Option.some.inj (hstatus.symm.trans hcompleted)) (by decide)
        cancelled := h.cancelled
        done := fun hlate hdone =>
          absurd (Option.some.inj (hconcluded.done hlate hdone).1) (by decide)
        error := fun _ _ => ⟨hstatus, rfl⟩
        persisted := fun htorn hpersisted => absurd (hconcluded.persisted htorn hpersisted) nofun
        outcome := Or.inr (by simp [hstatus]) }
    · cases failure <;> exact hkeeps (h.toTracks.append.failing
        (ExecHistory.expireStream_unswallowed h.released) h.released)
  · cases failure <;> exact hkeeps (h.toTracks.failing
      (ExecHistory.xadd_unswallowed h.released) h.released)

theorem executionFailed_intro {error : Exn} (h : Failing locals history) :
    execWp cfg (executionFailed cfg error) (fun _ => Concluded) locals history := by
  have hcrashed (error : Option String × Option String) :=
    h.override .failed locals.cancelled error (by decide) (by rintro ⟨⟩)
  have hcancelled := h.override .cancelled true locals.terminalError (by decide) fun _ => rfl
  unfold execWp
  cases error with
  | codexTurnTerminal status raw => exact publishCrash_intro (hcrashed _) rfl
  | fault fault =>
      cases fault with
      | cancelled => exact .of_raised hcancelled.toRaised h.released rfl
      | redisError | timeout | rpcError | staleTurnStream | staleSidecarTurn | queueError | other =>
          exact publishCrash_intro (hcrashed _) rfl

/-! ### The `finally` clause -/

/-- What `finalize_once` relies on. -/
structure Closing (locals : ExecLocals) (history : ExecHistory) : Prop where
  requested : history.requested = none
  skip : locals.redeliverySkip = history.skipped
  completed : locals.terminalStatus = some .completed → history.hasDone
  done : history.late = false → history.hasDone → locals.terminalStatus = some .completed
  error : history.late = false → history.hasError → locals.terminalStatus = some .failed
  persisted : history.torn = false → history.persisted → locals.terminalStatus = some .completed
  outcome : locals.redeliverySkip ∨ locals.terminalStatus.isSome

theorem Closing.fault (h : Closing locals history) (hop : op.isLeaseAcquisition = false) :
    Closing locals (history.fault op failure) where
  requested := h.requested
  skip := h.skip.trans (ExecHistory.fault_skipped hop).symm
  completed := h.completed
  done hlate := h.done (Bool.or_eq_false_iff.mp hlate).1
  error hlate := h.error (Bool.or_eq_false_iff.mp hlate).1
  persisted htorn := h.persisted (Bool.or_eq_false_iff.mp htorn).1
  outcome := h.outcome

/-- On the way to the safety net. -/
structure Leaving (locals : ExecLocals) (history : ExecHistory) : Prop
    extends Settled locals history where
  outcome : locals.redeliverySkip ∨ locals.terminalStatus.isSome

theorem Leaving.closing (h : Leaving locals history) : Closing locals history where
  requested := h.requested
  skip := h.skip
  completed hcompleted := (h.completed hcompleted).1
  done hlate hdone := (h.done hlate hdone).1
  error hlate herror := (h.error hlate herror).1
  persisted := h.persisted
  outcome := h.outcome

/-- Something raised out of the execution is on record. -/
theorem ended_of_fault (hrequested : history.requested = none) (hop : op.isExternal = false)
    (hraised : history.swallowed op failure = false) : ExecEnded (history.fault op failure) where
  outcome := Or.inr (Or.inr (Or.inl (by simp [ExecHistory.fault, hop])))
  published hlate _ hterminal := by
    simp only [ExecHistory.fault_hasTerminal] at hterminal
    simp [ExecHistory.fault, ExecHistory.exposed, hterminal, hrequested, hraised] at hlate
  persisted htorn _ hpersisted := by
    simp only [ExecHistory.fault_persisted] at hpersisted
    simp [ExecHistory.fault, ExecHistory.pending, hpersisted, hrequested, hraised] at htorn

theorem ended_of_requested (h : history.requested.isSome) : ExecEnded history where
  outcome := Or.inl h
  published _ _ _ := h
  persisted _ _ _ := h

/-- How the execution raises out of its `finally` clause. -/
def finallyRaises : Exn → ExecLocals → ExecHistory → Prop := fun _ _ => ExecEnded

theorem releaseHeld_spec (held : Option Nat) :
    ExecTriple cfg (fun locals history => Leaving locals history ∧ locals.leaseHolder = held)
      (releaseHeld cfg held) (fun _ => Leaving) finallyRaises := by
  rintro locals history ⟨h, hheld⟩
  cases held with
  | none => exact h
  | some holder =>
      have hlease := h.lease holder hheld
      have hreleased : Leaving locals { history with released := true } := { h with }
      unfold releaseHeld Lease.release
      rw [wp_bind]
      refine (wp_await_bind _ _).mpr ⟨⟨rfl, hlease.1⟩, fun _ => ?_,
        fun _ => ended_of_fault h.requested rfl rfl⟩
      rw [wp_orOnRedisError]
      refine (wp_await _).mpr ⟨⟨rfl, hlease⟩, fun _ => hreleased, fun failure => ?_⟩
      cases failure with
      | redisError text =>
          exact { toSettled := hreleased.toSettled.swallowed rfl rfl, outcome := h.outcome }
      | cancelled | timeout | rpcError | staleTurnStream | staleSidecarTurn | queueError | other =>
          exact ended_of_fault hreleased.requested rfl rfl

theorem teardown_spec :
    ExecTriple cfg Leaving (teardown cfg) (fun _ => Leaving) finallyRaises := by
  intro locals history h
  unfold teardown
  rw [wp_bind, wp_getLocal, either_ok, wp_ite]
  split
  · rw [wp_bind, wp_attempt]
    refine (wp_await _).mpr ⟨trivial, fun _ => releaseHeld_spec _ _ _ ⟨h, rfl⟩, fun _ => ?_⟩
    exact releaseHeld_spec _ _ _
      ⟨{ toSettled := h.toSettled.swallowed rfl rfl, outcome := h.outcome }, rfl⟩
  · exact h

theorem TerminalStatus.eq_failed {status : TerminalStatus} (hcompleted : status ≠ .completed)
    (hcancelled : status ≠ .cancelled) : status = .failed := by
  obtain ⟨status, hterminal⟩ := status
  cases status with
  | failed => rfl
  | completed => exact absurd rfl hcompleted
  | cancelled => exact absurd rfl hcancelled
  | starting | running => cases hterminal

/-- An execution that ends without its terminal frame has failed. -/
theorem Leaving.failed (h : Leaving locals history) (hpublished : locals.terminalPublished = false)
    (hcancelled : locals.cancelled = false) (hskip : locals.redeliverySkip = false) :
    locals.terminalStatus = some .failed := by
  obtain ⟨status, hstatus⟩ := Option.isSome_iff_exists.mp
    (h.outcome.resolve_left (Bool.eq_false_iff.mp hskip))
  have hnotCompleted : status ≠ .completed := by
    rintro rfl
    simp [(h.completed hstatus).2] at hpublished
  have hnotCancelled : status ≠ .cancelled := by
    rintro rfl
    simp [h.cancelled hstatus] at hcancelled
  rw [hstatus, TerminalStatus.eq_failed hnotCompleted hnotCancelled]

/-- The frame of the safety net. -/
theorem Leaving.append (h : Leaving locals history) {event : ChatEvent}
    (hstatus : locals.terminalStatus = some .failed) (hpublished : locals.terminalPublished = false)
    (hdone : event.isDone = false) : Closing locals (history.append event) where
  requested := h.requested
  skip := h.skip
  completed hcompleted := by simp [hasDone_append, (h.completed hcompleted).1]
  done hlate hdoneFrame := by
    have hearlier : history.hasDone := by simpa [hasDone_append, hdone] using hdoneFrame
    simp [(h.done hlate hearlier).2] at hpublished
  error _ _ := hstatus
  persisted := h.persisted
  outcome := h.outcome

theorem buildTerminalEvent_failed (error : Option String × Option String) :
    (buildTerminalEvent (some .failed) error).isError ∧
      (buildTerminalEvent (some .failed) error).isDone = false := by
  unfold buildTerminalEvent
  rw [if_neg (by decide)]
  exact ⟨rfl, rfl⟩

/-- A cancellation of the publication leaves the execution, any other fault stays inside. -/
theorem publishSafe_intro {event : ChatEvent} (h : Leaving locals history)
    (hstatus : locals.terminalStatus = some .failed) (hpublished : locals.terminalPublished = false)
    (hevent : event.isError ∧ event.isDone = false) :
    execWp cfg (exceptException
      (do
        let _ ← publish cfg.turnId event
        pure ())
      fun _ => pure ()) (either (fun _ => Closing) finallyRaises) locals history := by
  have hallowed : ExecAllowed cfg history (.xadd cfg.turnId event) := by
    refine ⟨rfl, h.requested, fun hlate => ?_, Or.inl hevent.1, by simp [hevent.2]⟩
    rw [ExecHistory.hasTerminal_eq, Bool.or_eq_false_iff]
    constructor
    · by_contra hdone
      simp [(h.done hlate (by simpa using hdone)).2] at hpublished
    · by_contra herror
      simp [(h.error hlate (by simpa using herror)).2] at hpublished
  have happended := h.append hstatus hpublished hevent.2
  unfold execWp publish
  rw [wp_exceptException, wp_bind, wp_bind]
  refine (wp_await _).mpr ⟨hallowed, fun rawId => ?_, fun failure => ?_⟩
  · rw [either_ok]
    refine (wp_await_bind _ _).mpr ⟨rfl, fun _ => happended, fun failure => ?_⟩
    cases failure with
    | cancelled => exact ended_of_fault happended.requested rfl (Bool.and_false _)
    | redisError | timeout | rpcError | staleTurnStream | staleSidecarTurn | queueError | other =>
        exact happended.fault rfl
  · cases failure with
    | cancelled => exact ended_of_fault h.requested rfl (Bool.and_false _)
    | redisError | timeout | rpcError | staleTurnStream | staleSidecarTurn | queueError | other =>
        exact h.closing.fault rfl

theorem publishSafetyTerminal_spec :
    ExecTriple cfg Leaving (publishSafetyTerminal cfg) (fun _ => Closing) finallyRaises := by
  intro locals history h
  unfold publishSafetyTerminal
  rw [wp_bind, wp_getLocal, either_ok, wp_ite]
  split
  · exact h.closing
  · rename_i hflags
    simp only [not_or, Bool.not_eq_true] at hflags
    obtain ⟨hpublished, hcancelled, hskip⟩ := hflags
    have hstatus := h.failed hpublished hcancelled hskip
    rw [hstatus]
    exact publishSafe_intro h hstatus hpublished (buildTerminalEvent_failed _)

/-- What is left once the outcome is asked for. -/
def Requested (locals : ExecLocals) (history : ExecHistory) : Prop :=
  (locals.redeliverySkip = true ∧ ExecEnded history) ∨ history.requested.isSome

theorem finalizeTurn_spec :
    ExecTriple cfg Closing (finalizeTurn cfg) (fun _ => Requested) finallyRaises := by
  intro locals history h
  have hskipped (hskip : locals.redeliverySkip = true) : Requested locals history := by
    have hrecord : history.skipped = true := h.skip.symm.trans hskip
    refine Or.inl ⟨hskip, Or.inr (Or.inl hrecord), fun _ hnone _ => ?_, fun _ hnone _ => ?_⟩
    · simp [hrecord] at hnone
    · simp [hrecord] at hnone
  unfold finalizeTurn
  rw [wp_bind, wp_getLocal, either_ok]
  cases hstatus : locals.terminalStatus with
  | none => exact hskipped (h.outcome.resolve_right (by simp [hstatus]))
  | some status =>
      simp only [wp_ite]
      split
      · rename_i hskip
        exact hskipped hskip
      · rename_i hskip
        have hsame {other : TerminalStatus} (hother : locals.terminalStatus = some other) :
            status = other := Option.some.inj (hstatus.symm.trans hother)
        refine (wp_await_bind _ _).mpr ⟨⟨rfl, ?_, h.requested, ?_, ?_, ?_⟩, fun _ => Or.inr rfl,
          fun _ => ended_of_fault h.requested rfl rfl⟩
        · exact h.skip.symm.trans (by simpa using hskip)
        · exact fun hcompleted => h.completed (hcompleted ▸ hstatus)
        · exact fun hlate => ⟨fun hdone => hsame (h.done hlate hdone),
            fun herror => hsame (h.error hlate herror)⟩
        · exact fun htorn hpersisted => hsame (h.persisted htorn hpersisted)

theorem executionFinally_intro (h : Concluded locals history) :
    execWp cfg (executionFinally cfg) (either (fun _ _ history => ExecEnded history)
      fun _ _ history => ExecEnded history) locals history := by
  unfold execWp executionFinally
  rw [wp_bind]
  refine teardown_spec.call monotone_nothing { h with } ?_ fun _ _ _ herror => herror
  intro _ locals history h
  rw [either_ok, wp_bind]
  refine publishSafetyTerminal_spec.call monotone_nothing h ?_ fun _ _ _ herror => herror
  intro _ locals history h
  rw [either_ok, wp_bind]
  refine finalizeTurn_spec.call monotone_nothing h ?_ fun _ _ _ herror => herror
  intro _ locals history h
  have hended : ExecEnded history := h.elim And.right ended_of_requested
  rw [either_ok, wp_bind, wp_getLocal, either_ok, wp_ite]
  split
  · exact hended
  · rename_i hskip
    have hrequested := h.resolve_left fun hskipped => hskip hskipped.1
    refine (wp_await_bind _ _).mpr ⟨trivial, fun _ => ?_, fun _ => ended_of_requested hrequested⟩
    rw [wp_ite]
    split
    · exact (wp_await _).mpr ⟨trivial, fun _ => hended, fun _ => ended_of_requested hrequested⟩
    · exact hended

/-! ### The whole execution -/

theorem executeLoaded_intro (h : Unleased locals history) :
    execWp cfg (executeLoaded cfg turn) (fun _ _ history => ExecEnded history) locals history := by
  unfold execWp executeLoaded
  rw [wp_tryFinally, wp_tryCatch]
  refine holdTurnLocks_spec.call monotone_nothing h (fun _ _ _ => executionFinally_intro) ?_
  intro error locals history hfailing
  rw [either_error]
  refine wp_mono monotone_nothing (executionFailed_intro hfailing) ?_
  exact fun _ _ _ => executionFinally_intro

/-- An execution that ends before it has published or persisted anything. -/
theorem ended_of_outcome (hquiet : history.hasTerminal = false) (hnone : history.persisted = false)
    (houtcome : history.requested.isSome ∨ history.skipped ∨ history.faulted ∨
      history.found = some none ∨
      (∃ row, history.found = some (some row) ∧ row.status.isTerminal) ∨
      history.user = some false) : ExecEnded history where
  outcome := houtcome
  published _ _ hterminal := by simp [hquiet] at hterminal
  persisted _ _ hpersisted := by simp [hnone] at hpersisted

/-- **An execution keeps to the rules**, whatever it is answered. -/
theorem executeTurn_conforms (cfg : ExecConfig) :
    (executeTurn cfg).wp (execMonitor cfg) (fun out _ _ => nomatch out)
      (fun _ history => ExecEnded history) {} := by
  have hinner : execWp cfg (executeTurnInner cfg) (fun _ _ history => ExecEnded history) {} {} := by
    unfold execWp executeTurnInner
    refine (wp_await_bind _ _).mpr ⟨rfl, fun found => ?_, fun _ => ended_of_fault rfl rfl rfl⟩
    cases found with
    | none => exact ended_of_outcome rfl rfl (Or.inr (Or.inr (Or.inr (Or.inl rfl))))
    | some turn =>
        simp only [wp_ite]
        split
        · rename_i hterminal
          exact ended_of_outcome rfl rfl
            (Or.inr (Or.inr (Or.inr (Or.inr (Or.inl ⟨turn, rfl, hterminal⟩)))))
        · refine (wp_await_bind _ _).mpr ⟨⟨turn, rfl, rfl⟩, fun user => ?_,
            fun _ => ended_of_fault rfl rfl rfl⟩
          cases user with
          | true =>
              have hlease : ∀ holder, ({} : ExecLocals).leaseHolder = some holder →
                  none = some holder := fun _ hholder => hholder
              refine executeLoaded_intro ?_
              exact ⟨⟨⟨rfl, rfl, rfl, rfl, rfl, rfl, rfl, hlease⟩, rfl, rfl, rfl, rfl, rfl, rfl⟩, rfl,
                rfl⟩
          | false =>
              exact ended_of_outcome rfl rfl (Or.inr (Or.inr (Or.inr (Or.inr (Or.inr rfl)))))
  unfold executeTurn
  rw [Program.wp_bind]
  exact hinner

end CodexServer
