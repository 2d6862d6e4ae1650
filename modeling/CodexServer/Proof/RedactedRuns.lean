import CodexServer.Proof.ErrorReplies
import CodexServer.Proof.Runs

/-!
# Error texts along a run

What the threads write is redacted, so what lies in the streams and in the rows is, and with it what
the readers of both are sent.
-/

open Transition

namespace CodexServer

/-- Nothing leaks of what lies in the rows and in the streams. -/
structure World.Redacted (world : World) : Prop where
  turns : ∀ turnId row, world.turns turnId = some row →
    RedactedOutcome (row.errorCode, row.errorDetail)
  streams : ∀ turnId, ∀ event ∈ world.streams turnId, event.Redacted

section

variable {world : World} {op : Op} {turnId : Nat}

/-- Only `finalize_once` writes an error into a row. -/
theorem apply_redacted {statement : TurnUpdate} {before after : TurnRow}
    (hop : op.Redacted) (hstatement : world.statement op = some (turnId, statement))
    (happly : statement.apply before = some after)
    (hbefore : RedactedOutcome (before.errorCode, before.errorDetail)) :
    RedactedOutcome (after.errorCode, after.errorDetail) := by
  cases op with
  | markRunning | heartbeat =>
      cases hstatement
      obtain ⟨-, hafter⟩ := Option.ite_none_right_eq_some.mp happly
      cases hafter
      exact hbefore
  | updateLastEvent | persistFinal =>
      cases hstatement
      cases happly
      exact hbefore
  | finalizeOnce =>
      cases hstatement
      obtain ⟨-, hafter⟩ := Option.ite_none_right_eq_some.mp happly
      cases hafter
      exact hop
  | _ => cases hstatement

/-- Only `XADD` writes into a stream. -/
theorem effect_streams {self : Nat} {after : World} (h : world.Effect self op after)
    {event : ChatEvent} (hevent : event ∈ after.streams turnId) :
    event ∈ world.streams turnId ∨ op = .xadd turnId event := by
  cases h with
  | appended target appended hop =>
      dsimp only at hevent
      by_cases htarget : turnId = target
      · subst htarget
        rw [Function.update_self] at hevent
        refine (List.mem_append.mp hevent).imp_right fun hnew => ?_
        rw [hop, List.mem_singleton.mp hnew]
      · rw [Function.update_of_ne htarget] at hevent
        exact .inl hevent
  | _ => exact .inl hevent

theorem World.Redacted.perform (h : world.Redacted) (self : Nat) (lost : Bool)
    (hop : op.Redacted) : (world.perform self lost op).2.Redacted where
  turns turnId row hrow := by
    have hstep : RowStep world op turnId (world.turns turnId) (some row) := hrow ▸ perform_row
    generalize hbefore : world.turns turnId = before at hstep
    cases hstep with
    | unchanged => exact h.turns turnId row hbefore
    | updated statement hstatement happly =>
        exact apply_redacted hop hstatement happly (h.turns turnId _ hbefore)
    | created payload hcreate huser hturn => exact nofun
  streams turnId event hevent := by
    rcases effect_streams (perform_effect world self lost op) hevent with hold | rfl
    · exact h.streams turnId event hold
    · exact hop

end

/-! ### The threads -/

section

variable {cluster next : Cluster} {action : ClusterAction}

structure Cluster.Redacted (cluster : Cluster) : Prop where
  world : cluster.world.Redacted
  executions : ∀ execution ∈ cluster.executions,
    execution.program.Safe Op.Redacted Harmless (fun _ => True) fun _ => True
  controls : ∀ control ∈ cluster.controls,
    control.program.Safe Op.Redacted Quiet (fun _ => True) fun _ => True

theorem heartbeat_redacted {heartbeat : Heartbeat} {op : Op} (hop : heartbeat.op = some op) :
    op.Redacted := by
  unfold Heartbeat.op at hop
  split at hop <;> cases hop <;> trivial

/-- What the thread of a step awaits is redacted. -/
theorem Cluster.Redacted.op (h : cluster.Redacted) {op : Op} (hop : cluster.op action = some op) :
    op.Redacted := by
  cases action with
  | advance id raised =>
      obtain ⟨execution, hexecution, hop⟩ := Option.bind_eq_some_iff.mp hop
      obtain ⟨next, hprogram⟩ := Thread.op_eq_some hop
      have hsafe := h.executions execution (List.mem_of_getElem? hexecution)
      rw [hprogram] at hsafe
      exact hsafe.1
  | beat id raised =>
      obtain ⟨execution, hexecution, hop⟩ := Option.bind_eq_some_iff.mp hop
      obtain ⟨heartbeat, hheartbeat, hop⟩ := Option.bind_eq_some_iff.mp hop
      exact heartbeat_redacted hop
  | control id raised =>
      obtain ⟨control, hcontrol, hop⟩ := Option.bind_eq_some_iff.mp hop
      obtain ⟨next, hprogram⟩ := Thread.op_eq_some hop
      have hsafe := h.controls control (List.mem_of_getElem? hcontrol)
      rw [hprogram] at hsafe
      exact hsafe.1
  | tick | deliver | redeliver | spawn | crash | quit | miss => cases hop

theorem Cluster.Redacted.shared (h : cluster.Redacted) {world : World}
    (hshared : cluster.Shared action world) : world.Redacted := by
  cases hshared with
  | tick => exact ⟨h.world.turns, h.world.streams⟩
  | performed self lost op hop hraised hself => exact h.world.perform self lost (h.op hop)
  | bookkeeping => exact ⟨h.world.turns, h.world.streams⟩

theorem Execution.Awaits.safe {execution after : Execution} {self : Nat} {world later : World}
    {op : Op} {raised : Option Fault} (hawaits : execution.Awaits self world op raised after later)
    (h : execution.program.Safe Op.Redacted Harmless (fun _ => True) fun _ => True)
    (hraised : ∀ fault, raised = some fault → Harmless op (.error fault)) :
    after.program.Safe Op.Redacted Harmless (fun _ => True) fun _ => True := by
  cases hawaits with
  | answered next hprogram hrunning =>
      rw [hprogram] at h
      exact h.2 _ trivial
  | raised failure next hprogram hrunning hlocal =>
      rw [hprogram] at h
      exact h.2 _ (hraised failure rfl)

theorem Control.Awaits.safe {control after : Control} {self : Nat} {world later : World}
    {op : Op} {raised : Option Fault} (hawaits : control.Awaits self world op raised after later)
    (h : control.program.Safe Op.Redacted Quiet (fun _ => True) fun _ => True)
    (hraised : ∀ fault, raised = some fault → Quiet op (.error fault)) :
    after.program.Safe Op.Redacted Quiet (fun _ => True) fun _ => True := by
  cases hawaits with
  | answered next hprogram hrunning =>
      rw [hprogram] at h
      exact h.2 _ trivial
  | raised failure next hprogram hrunning hlocal =>
      rw [hprogram] at h
      exact h.2 _ (hraised failure rfl)

/-- The calm of a step of the cluster. -/
structure ClusterAction.Calm (cluster : Cluster) (action : ClusterAction) : Prop where
  coded : ∀ cfg again, action = .deliver cfg again → ∀ note ∈ cfg.script.notes, note.coded = true
  spawned : ∀ kind, action = .spawn kind → kind.Redacted
  advanced : ∀ id fault op, action = .advance id (some fault) → cluster.op action = some op →
    Harmless op (.error fault)
  controlled : ∀ id fault op, action = .control id (some fault) → cluster.op action = some op →
    Quiet op (.error fault)

/-- **One step of the threads.** -/
theorem Cluster.Redacted.step (h : cluster.Redacted) (hcalm : action.Calm cluster)
    (hsteps : cluster.Steps action next) : next.Redacted where
  world := h.shared hsteps.shared
  executions after hmem := by
    obtain ⟨id, hafter⟩ := List.mem_iff_getElem?.mp hmem
    cases hsteps.continues hafter with
    | started cfg again haction hqueue hid hstarted =>
        subst hstarted
        exact safe_executeTurn (hcalm.coded cfg again haction)
    | advanced execution op raised haction hexecution hawaits =>
        refine hawaits.safe (h.executions execution (List.mem_of_getElem? hexecution)) ?_
        rintro fault rfl
        obtain ⟨next, hprogram⟩ := hawaits.program_eq
        refine hcalm.advanced id fault op haction ?_
        simp [haction, Cluster.op, hexecution, hprogram, Thread.op]
    | kept execution haction hexecution hcfg hprogram hhistory hrunning =>
        rw [hprogram]
        exact h.executions execution (List.mem_of_getElem? hexecution)
  controls after hmem := by
    obtain ⟨id, hafter⟩ := List.mem_iff_getElem?.mp hmem
    cases hsteps.controls hafter with
    | started kind haction hnotice hid hstarted =>
        subst hstarted
        exact safe_code (hcalm.spawned kind haction)
    | advanced control op raised haction hcontrol hawaits =>
        refine hawaits.safe (h.controls control (List.mem_of_getElem? hcontrol)) ?_
        rintro fault rfl
        obtain ⟨next, hprogram⟩ := hawaits.program_eq
        refine hcalm.controlled id fault op haction ?_
        simp [haction, Cluster.op, hcontrol, hprogram, Thread.op]
    | kept control haction hcontrol hkind hprogram hhistory hrunning =>
        rw [hprogram]
        exact h.controls control (List.mem_of_getElem? hcontrol)

end

/-! ### The readers -/

theorem redacted_terminalFromStatus {row : TurnRow}
    (h : RedactedOutcome (row.errorCode, row.errorDetail)) (messages : Nat → Option AssistantMessage) :
    RedactedReply (terminalFromStatus messages row) := by
  unfold terminalFromStatus
  split
  · split
    · exact redactedReply_some (redacted_of_silent rfl)
    · exact redactedReply_some (redacted_of_silent rfl)
  · exact redactedReply_some (redacted_ofOutcome h (by decide) (by decide))
  · exact redactedReply_some (redacted_ofOutcome h (by decide) (by decide))
  · exact nofun
  · exact nofun

/-- The entries that a reader has at hand are redacted. -/
def Handler.Redacted (handler : Handler) : Prop :=
  ∀ cursor entries, handler = .tailing (.yielding cursor entries) →
    ∀ entry ∈ entries, entry.2.Redacted

theorem after_subset (log : TurnLog) (bound : ReadBound) {entry : EntryId × ChatEvent}
    (h : entry ∈ bound.after log) : entry ∈ log.entries := by
  cases bound with
  | exclusive id => exact List.mem_of_mem_filter h
  | inclusive id => exact List.mem_of_mem_filter h

theorem tail_redacted {log : TurnLog} {status : Option TurnStatus} {tail next : Tail}
    {event : Option ChatEvent} (hlog : ∀ entry ∈ log.entries, entry.2.Redacted)
    (h : (Handler.tailing tail).Redacted) (hstep : tail.step log status = some (next, event)) :
    (Handler.tailing next).Redacted ∧ RedactedReply event := by
  cases tail with
  | reading cursor =>
      simp only [Tail.step] at hstep
      split at hstep <;> cases hstep <;> exact ⟨nofun, nofun⟩
  | blocked cursor bound =>
      simp only [Tail.step] at hstep
      split at hstep
      · cases hstep
        exact ⟨nofun, nofun⟩
      · cases hstep
        refine ⟨?_, nofun⟩
        rintro _ _ ⟨⟩ entry hentry
        exact hlog entry (after_subset log bound (List.mem_of_mem_take hentry))
  | checking cursor =>
      obtain hstep | hstep := ite_eq_iff.mp hstep
      all_goals
        cases hstep.2
        exact ⟨nofun, nofun⟩
  | yielding cursor entries =>
      cases entries with
      | nil =>
          cases hstep
          exact ⟨nofun, nofun⟩
      | cons entry rest =>
          obtain ⟨hentry, hrest⟩ := List.forall_mem_cons.mp (h cursor _ rfl)
          have hframe : RedactedReply (some (Tail.frame entry)) := redactedReply_some hentry
          obtain hstep | hstep := ite_eq_iff.mp hstep
          · cases hstep.2
            exact ⟨nofun, hframe⟩
          · cases hstep.2
            refine ⟨?_, hframe⟩
            rintro _ _ ⟨⟩
            exact hrest
  | returned | raised => cases hstep

theorem handler_redacted {log : TurnLog} {messages : Nat → Option AssistantMessage} {row : TurnRow}
    {handler next : Handler} {event : Option ChatEvent}
    (hlog : ∀ entry ∈ log.entries, entry.2.Redacted)
    (hrow : RedactedOutcome (row.errorCode, row.errorDetail)) (h : handler.Redacted)
    (hstep : handler.step log messages row = some (next, event)) :
    next.Redacted ∧ RedactedReply event := by
  have hterminal := redacted_terminalFromStatus hrow messages
  cases handler with
  | starting =>
      cases hstep
      exact ⟨nofun, redactedReply_some (redacted_of_silent rfl)⟩
  | loading afterId =>
      obtain hstep | hstep := ite_eq_iff.mp hstep
      · cases hstep.2
        exact ⟨nofun, hterminal⟩
      · cases hstep.2
        exact ⟨nofun, nofun⟩
  | loadingActive afterId =>
      obtain hstep | hstep := ite_eq_iff.mp hstep
      all_goals
        cases hstep.2
        exact ⟨nofun, nofun⟩
  | loadingLatest | refreshing =>
      cases hstep
      exact ⟨nofun, hterminal⟩
  | tailing tail =>
      cases tail with
      | returned | raised =>
          cases hstep
          exact ⟨nofun, nofun⟩
      | reading | blocked | checking | yielding =>
          obtain ⟨⟨after, found⟩, htail, hnext⟩ := Option.map_eq_some_iff.mp hstep
          cases hnext
          exact tail_redacted hlog h htail
  | ended | raised => cases hstep

/-! ### The requests -/

namespace ChatRPC

open RateLimit (UserKind)

/-- What a request still yields is redacted, if it goes on to be answered quietly. -/
def RequestProgram.Redacted (program : RequestProgram) : Prop :=
  ∃ history : RequestHistory, history.quiet ∧
    program.wp requestMonitor (fun out _ _ => nomatch out) (fun _ _ => True) history ∧
    (history.tailed → ∀ event next, program = .call (.yieldEvent event) next → event.Redacted)

theorem start_redacted (kind : UserKind) (request : RunTurnRequest) :
    RequestProgram.Redacted
      ((ChatRPC.runTurn kind request {}).bind fun (outcome, _) => .ret outcome) := by
  refine ⟨⟨True, False⟩, trivial, ?_, False.elim⟩
  rw [Program.wp_bind]
  exact Program.wp_mono monotone_nothing (fun _ _ _ => trivial)
    (discreetRequest_runTurn kind request {} ⟨True, False⟩)

/-- A limit that is reached has a text without the marker. -/
theorem reserveTurn_redacted (kind : UserKind) (settings : RateLimit.RuntimeSettings)
    (reading clock : ℚ) (keys : RateLimit.Keys) (limited : RateLimit.RateLimited)
    (h : (RateLimit.reserveTurn kind settings reading clock keys).1 = .error limited) :
    ¬ Leaks limited.text := by
  have htext : ∀ (scope : String) (limit : Nat), 'X' ∉ scope.toList →
      ¬ Leaks (RateLimit.RateLimited.text ⟨kind, scope, limit⟩) := by
    intro scope limit hscope
    have hkind : 'X' ∉ kind.value.toList := by cases kind <;> decide
    refine not_leaks_of_not_mem ?_
    simpa only [RateLimit.RateLimited.text, String.toList_append, List.mem_append, not_or] using
      ⟨⟨⟨⟨⟨hscope, by decide⟩, not_mem_toString limit⟩, by decide⟩, hkind⟩, by decide⟩
  unfold RateLimit.reserveTurn at h
  split at h
  · cases h
  · dsimp only at h
    split at h
    · cases h
    · cases h
      exact htext "hourly" _ (by decide)
    · cases h
      exact htext "active" _ (by decide)

theorem follows_redacted {world : World} (h : world.Redacted) {op : RequestOp}
    {program : RequestProgram} (hfollows : follows world op program = true)
    (htail : ∃ turnId, op = .tail turnId) {event : ChatEvent}
    {next : Except Fault Unit → RequestProgram} (hprogram : program = .call (.yieldEvent event) next) :
    event.Redacted := by
  obtain ⟨turnId, rfl⟩ := htail
  subst hprogram
  obtain ⟨frame, hframe, hkind⟩ := List.any_eq_true.mp hfollows
  have hredacted := h.streams turnId frame hframe
  unfold ChatEvent.Redacted ChatEvent.errorTexts at hredacted ⊢
  rwa [of_decide_eq_true hkind] at hredacted

structure Service.Redacted (service : Service) : Prop where
  cluster : service.cluster.Redacted
  requests : ∀ program ∈ service.requests, RequestProgram.Redacted program
  readers : ∀ reader ∈ service.readers, reader.2.Redacted
  yielded : ∀ event ∈ service.yielded, event.Redacted

variable {service next : Service}

/-- A calm answer is quiet, and leaves a redacted state behind. -/
theorem answer_redacted {id : Nat} {op : RequestOp} {reply : Reply} {world later : World}
    {value : Except Fault op.Val} (hworld : world.Redacted) (hop : service.requestOp id = some op)
    (hcalm : service.Calm (.advance id reply))
    (hwrites : ∀ written, op = .control written → written.Redacted)
    (hanswer : answer world id op reply = some (value, later)) :
    Quiet op value ∧ later.Redacted := by
  cases reply with
  | raised fault =>
      cases hanswer
      refine ⟨?_, hworld⟩
      cases op with
      | control written => exact hcalm (.control written) hop
      | _ => exact trivial
  | reserved settings reading clock keys =>
      cases op with
      | reserveTurn kind =>
          obtain ⟨rfl, rfl⟩ := Prod.mk.inj (Option.some.inj hanswer)
          refine ⟨?_, hworld⟩
          cases hreserved : (RateLimit.reserveTurn kind settings reading clock keys).1 with
          | ok => exact trivial
          | error limited => exact reserveTurn_redacted kind settings reading clock keys limited hreserved
      | _ => cases hanswer
  | released remaining =>
      cases op with
      | decrActive =>
          obtain ⟨rfl, rfl⟩ := Prod.mk.inj (Option.some.inj hanswer)
          exact ⟨trivial, hworld⟩
      | _ => cases hanswer
  | prepared value =>
      cases op with
      | prepareRunTurn =>
          obtain ⟨rfl, rfl⟩ := Prod.mk.inj (Option.some.inj hanswer)
          exact ⟨hcalm, hworld⟩
      | _ => cases hanswer
  | done =>
      cases op with
      | control written =>
          obtain ⟨rfl, rfl⟩ := Prod.mk.inj (Option.some.inj hanswer)
          exact ⟨trivial, hworld.perform id false (hwrites written rfl)⟩
      | terminalForTurnId turnId =>
          obtain ⟨rfl, rfl⟩ := Prod.mk.inj (Option.some.inj hanswer)
          refine ⟨?_, hworld⟩
          intro event hevent
          obtain ⟨row, hrow, hterminal⟩ := Option.bind_eq_some_iff.mp hevent
          exact redacted_terminalFromStatus (hworld.turns turnId row hrow) world.message event hterminal
      | yieldEvent | tail | deleteActive =>
          obtain ⟨rfl, rfl⟩ := Prod.mk.inj (Option.some.inj hanswer)
          exact ⟨trivial, hworld⟩
      | reserveTurn | prepareRunTurn | decrActive => cases hanswer

theorem Service.Redacted.advance (h : service.Redacted) {id : Nat} {reply : Reply}
    (hcalm : service.Calm (.advance id reply)) (hstep : service.advance id reply = some next) :
    next.Redacted := by
  unfold Service.advance at hstep
  split at hstep
  · next op program hrequest =>
      obtain ⟨history, hquiet, hwp, htailed⟩ := h.requests _ (List.mem_of_getElem? hrequest)
      have hop : service.requestOp id = some op := by simp [Service.requestOp, hrequest]
      have hwrites : ∀ written, op = .control written → written.Redacted := by
        rintro written rfl
        exact hwp.1 hquiet
      have hsent : ∀ event ∈ sent op, event.Redacted := by
        intro event hevent
        cases op with
        | yieldEvent yielded =>
            obtain rfl := List.mem_singleton.mp hevent
            exact (hwp.1 hquiet).elim (fun h => htailed h _ _ rfl) fun h => h
        | _ => cases hevent
      split at hstep
      · next value world hanswer =>
          obtain ⟨hvalue, hworld⟩ := answer_redacted h.cluster.world hop hcalm hwrites hanswer
          obtain ⟨hfollows, hnext⟩ := Option.ite_none_right_eq_some.mp hstep
          cases hnext
          refine ⟨⟨hworld, h.cluster.executions, h.cluster.controls⟩, fun request hrequest => ?_,
            h.readers, fun event hevent => ?_⟩
          · rcases List.mem_or_eq_of_mem_set hrequest with hold | rfl
            · exact h.requests request hold
            · exact ⟨requestMonitor.next history op value, ⟨hquiet, hvalue⟩, hwp.2 value,
                fun htail event next hprogram => follows_redacted hworld hfollows htail hprogram⟩
          · exact (List.mem_append.mp hevent).elim (h.yielded event) (hsent event)
      · cases hstep
  · cases hstep

theorem Service.Redacted.readFrame (h : service.Redacted) {id : Nat} {log : TurnLog}
    (hstep : service.readFrame id log = some next) : next.Redacted := by
  unfold Service.readFrame at hstep
  split at hstep
  · next turnId handler hreader =>
      obtain ⟨hlog, hstep⟩ := Option.ite_none_right_eq_some.mp hstep
      obtain ⟨row, hrow, hstep⟩ := Option.bind_eq_some_iff.mp hstep
      obtain ⟨⟨later, event⟩, hhandler, hnext⟩ := Option.map_eq_some_iff.mp hstep
      have hentries : ∀ entry ∈ log.entries, entry.2.Redacted := fun entry hentry =>
        h.cluster.world.streams turnId entry.2 (hlog ▸ List.mem_map_of_mem hentry)
      obtain ⟨hlater, hevent⟩ := handler_redacted hentries (h.cluster.world.turns turnId row hrow)
        (h.readers _ (List.mem_of_getElem? hreader)) hhandler
      cases hnext
      refine ⟨h.cluster, h.requests, fun reader hmem => ?_, fun found hfound => ?_⟩
      · rcases List.mem_or_eq_of_mem_set hmem with hold | rfl
        · exact h.readers reader hold
        · exact hlater
      · exact (List.mem_append.mp hfound).elim (h.yielded found) fun hnew =>
          hevent found (Option.mem_toList.mp hnew)
  · cases hstep

theorem clusterCalm {action : ClusterAction} (hcalm : service.Calm (.cluster action))
    (hcoded : ∀ cfg again, action = .deliver cfg again → cfg.script.notes.all CodexNote.coded = true) :
    action.Calm service.cluster := by
  refine ⟨fun cfg again haction => List.all_eq_true.mp (hcoded cfg again haction), ?_, ?_, ?_⟩
  · rintro kind rfl
    exact hcalm
  · rintro id fault op rfl hop
    exact hcalm op hop
  · rintro id fault op rfl hop
    exact hcalm op hop

/-- **One step of the service.** -/
theorem Service.Redacted.step (h : service.Redacted) {action : ServiceAction}
    (hcalm : service.Calm action) (hstep : service.step action = some next) : next.Redacted := by
  cases action with
  | cluster action =>
      obtain ⟨hcoded, hstep⟩ := Option.ite_none_right_eq_some.mp hstep
      obtain ⟨cluster, hcluster, hnext⟩ := Option.map_eq_some_iff.mp hstep
      cases hnext
      refine ⟨h.cluster.step (clusterCalm hcalm ?_) (Cluster.steps_of_step hcluster), h.requests,
        h.readers, h.yielded⟩
      rintro cfg again rfl
      exact hcoded
  | runTurn kind request =>
      cases hstep
      refine ⟨h.cluster, fun program hmem => ?_, h.readers, h.yielded⟩
      rcases List.mem_append.mp hmem with hold | hnew
      · exact h.requests program hold
      · exact List.mem_singleton.mp hnew ▸ start_redacted kind request
  | advance id reply => exact h.advance hcalm hstep
  | tailTurn turnId request =>
      cases hstep
      refine ⟨h.cluster, h.requests, fun reader hmem => ?_, h.yielded⟩
      rcases List.mem_append.mp hmem with hold | hnew
      · exact h.readers reader hold
      · obtain rfl := List.mem_singleton.mp hnew
        cases request <;> exact nofun
  | read id log => exact h.readFrame hstep

theorem empty_redacted (users : Nat → Bool) : (World.empty users).Redacted where
  turns _ _ hrow := absurd hrow nofun
  streams _ _ hevent := absurd hevent List.not_mem_nil

theorem start_serviceRedacted (users : Nat → Bool) : (Service.start users).Redacted where
  cluster := ⟨empty_redacted users, fun _ hmem => absurd hmem List.not_mem_nil, fun _ hmem =>
    absurd hmem List.not_mem_nil⟩
  requests _ hmem := absurd hmem List.not_mem_nil
  readers _ hmem := absurd hmem List.not_mem_nil
  yielded _ hmem := absurd hmem List.not_mem_nil

/-- **What users are shown of errors is redacted** in every run whose steps are all calm: the frames
that are yielded, those in the streams, and what `_terminal_from_status` makes of a row. -/
theorem errors_redacted {users : Nat → Bool}
    (hreach : Reach Service.step Service.Calm (Service.start users) service) :
    (∀ event ∈ service.yielded, event.Redacted) ∧
    (∀ turnId, ∀ event ∈ service.cluster.world.streams turnId, event.Redacted) ∧
    ∀ turnId row, service.cluster.world.turns turnId = some row →
      (∀ detail ∈ row.errorDetail, ¬ Leaks detail) ∧
      ∀ event ∈ terminalFromStatus service.cluster.world.message row, event.Redacted := by
  have hredacted : service.Redacted := by
    refine hreach.invariant Service.Redacted ?_ fun before action after h hcalm hstep =>
      h.step hcalm hstep
    exact start_serviceRedacted users
  refine ⟨hredacted.yielded, hredacted.cluster.world.streams, fun turnId row hrow => ?_⟩
  have houtcome := hredacted.cluster.world.turns turnId row hrow
  refine ⟨fun detail hdetail => houtcome detail ?_, redacted_terminalFromStatus houtcome _⟩
  exact List.mem_append_right _ (Option.mem_toList.mpr hdetail)

/-! ### One turn, with a harmless exception and with another -/

/-- The notifications of the turn break off. -/
def brokenOff : ExecConfig := ⟨1, 0, none, 0, 60, 1, ⟨.ok ("thread", "turn"), [.event (.token "Hi")]⟩⟩

/-- A `run_turn` up to its tail, the execution of the turn with the exception after nine awaits, and
the rest of the request, which finds the turn failed. -/
def failedTurn (fault : Fault) : List ServiceAction :=
  [.runTurn .admin ⟨"hello", [], []⟩,
    .advance 0 (.reserved ⟨⟨0, 0⟩, ⟨0, 0⟩, 20⟩ 0 0 ⟨none, none⟩),
    .advance 0 (.prepared ⟨1, 1, 1, .admin, false, false, false, ""⟩)] ++
  List.replicate 4 (.advance 0 .done) ++
  .cluster (.deliver brokenOff false) :: List.replicate 9 (.cluster (.advance 0 none)) ++
  .cluster (.advance 0 (some fault)) :: List.replicate 11 (.cluster (.advance 0 none)) ++
  List.replicate 3 (.advance 0 .done)

def failedTurnRuns (fault : Fault) : Option Service :=
  run Service.step (Service.start fun _ => true) (failedTurn fault)

/-- The last frame of the request, the frames in the stream and the detail in the row. -/
def shown (service : Service) : Option ChatEvent × List ChatEvent × Option String :=
  (service.yielded.getLast?, service.cluster.world.streams 1,
    (service.cluster.world.turns 1).bind TurnRow.errorDetail)

/-- A frame and a row of the failed turn have the text of the exception. -/
def shownAs (text : String) : Option ChatEvent × List ChatEvent × Option String :=
  (some (errorEvent CodexErrorCode.codexError (some text)),
    [errorEvent CodexErrorCode.codexError (some text)], some text)

theorem errors_redacted_reset : ∃ service,
    failedTurnRuns (.rpcError "connection reset") = some service ∧
    shown service = shownAs "connection reset" ∧ ∀ event ∈ service.yielded, event.Redacted := by
  have hallowed : RunAllowed Service.step Service.Calm (Service.start fun _ => true)
      (failedTurn (.rpcError "connection reset")) := by decide
  have hshown : (failedTurnRuns (.rpcError "connection reset")).map shown =
      some (shownAs "connection reset") := by decide
  obtain ⟨service, hrun, hservice⟩ := Option.map_eq_some_iff.mp hshown
  exact ⟨service, hrun, hservice, (errors_redacted (reach_of_run hrun hallowed)).1⟩

def expiredLink : String := "GET https://bucket/key?X-Amz-Signature=0f failed"

/-- The exception that ends the loop of `stream_turn` goes out as it is. -/
theorem errors_leak : ∃ service, failedTurnRuns (.rpcError expiredLink) = some service ∧
    (∃ event ∈ service.yielded, ¬ event.Redacted) ∧
    (∃ event ∈ service.cluster.world.streams 1, ¬ event.Redacted) ∧
    ∃ row detail, service.cluster.world.turns 1 = some row ∧ row.errorDetail = some detail ∧
      Leaks detail := by
  have hshown : (failedTurnRuns (.rpcError expiredLink)).map shown =
      some (shownAs expiredLink) := by decide
  have hleaks : ¬ (errorEvent CodexErrorCode.codexError (some expiredLink)).Redacted ∧
      Leaks expiredLink := by decide
  obtain ⟨service, hrun, hservice⟩ := Option.map_eq_some_iff.mp hshown
  obtain ⟨hyielded, hshared⟩ := Prod.mk.inj hservice
  obtain ⟨hstream, hdetail⟩ := Prod.mk.inj hshared
  obtain ⟨row, hrow, hdetail⟩ := Option.bind_eq_some_iff.mp hdetail
  refine ⟨service, hrun, ⟨_, List.mem_of_getLast? hyielded, hleaks.1⟩, ⟨_, ?_, hleaks.1⟩, row, _,
    hrow, hdetail, hleaks.2⟩
  rw [hstream]
  exact List.mem_singleton_self _

end ChatRPC

end CodexServer
