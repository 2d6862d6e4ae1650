import CodexServer.Proof.Sole

/-!
# The terminal frame and the row

A terminal frame is published by the loop over the stream, by the `except` clause or by the safety
net, and the flag that records it is set later. The outcome of the row agrees with the stream as long
as nothing is raised between the frame and `finalize_once` but what the execution takes for an answer.
-/

open Transition

namespace CodexServer

/-- A terminal frame stands at the end. -/
def TerminalEnds (events : List ChatEvent) : Prop :=
  ∀ event ∈ events.dropLast, event.isTerminal = false

/-- The turn is delivered once, and nobody but its execution finalises it. -/
def Cluster.sole (turnId : Nat) (cluster : Cluster) (action : ClusterAction) : Bool :=
  match action with
  | .deliver cfg _ => cfg.turnId ≠ turnId || cluster.undelivered turnId
  | .control id none =>
      match cluster.op (.control id none) with
      | some (.finalizeOnce other ..) => other ≠ turnId
      | _ => true
  | _ => true

/-- The turn is delivered once, and whoever else finalises it comes too late. -/
def Cluster.alone (turnId : Nat) (cluster : Cluster) (action : ClusterAction) : Bool :=
  match action with
  | .deliver cfg _ => cfg.turnId ≠ turnId || cluster.undelivered turnId
  | .control id none =>
      match cluster.op (.control id none) with
      | some (.finalizeOnce other ..) => other ≠ turnId ||
          (cluster.world.turns turnId).any fun row => row.status.isTerminal
      | _ => true
  | _ => true

/-- What is raised at the awaits of the turn's execution is no matter once a terminal frame is in the
stream and the outcome is not committed. -/
def Cluster.calm (turnId : Nat) (cluster : Cluster) (action : ClusterAction) : Bool :=
  match action with
  | .advance id (some fault) =>
      (cluster.executions[id]?).all fun execution =>
        execution.turnId ≠ turnId || !execution.history.exposed ||
          execution.program.op.all fun op => execution.history.swallowed op fault
  | _ => true

section

variable {world : World} {self turnId : Nat} {lost : Bool} {op : Op} {history : ExecHistory}
  {cfg : ExecConfig}

theorem World.streams_kept (hop : ∀ event, op ≠ .xadd turnId event) :
    (world.perform self lost op).2.streams turnId = world.streams turnId := by
  have heffect := perform_effect world self lost op
  generalize (world.perform self lost op).2 = after at heffect ⊢
  cases heffect with
  | appended target event hxadd =>
      have htarget : turnId ≠ target := by
        rintro rfl
        exact hop event hxadd
      exact Function.update_of_ne htarget _ _
  | _ => rfl

/-- The status of the row is the one asked for, or the turn is active. -/
def World.Outcome (world : World) (turnId : Nat) (requested : Option (TerminalStatus × Bool)) :
    Prop :=
  ∃ row, world.turns turnId = some row ∧ (requested = none → row.status.isActive = true) ∧
    ∀ status won, requested = some (status, won) → row.status = status.val

theorem World.Outcome.kept {requested : Option (TerminalStatus × Bool)}
    (h : world.Outcome turnId requested) (htimed : world.Timed) (hop : op.leavesStatus turnId) :
    (world.perform self lost op).2.Outcome turnId requested := by
  obtain ⟨row, hrow, hactive, hstatus⟩ := h
  obtain ⟨after, hafter, hleads, hkept⟩ := htimed.status_kept hrow hop self lost
  refine ⟨after, hafter, fun hnone => hkept.trans (hactive hnone), fun status won hrequested => ?_⟩
  have hterminal : row.status.isTerminal = true := hstatus status won hrequested ▸ status.property
  exact (hleads.terminal hterminal).trans (hstatus status won hrequested)

/-- An operation of somebody else than the execution that does not finalise the turn. -/
theorem Op.leavesStatus_of_foreign {action : ClusterAction}
    (hforeign : op.about = some turnId →
      op = .heartbeat turnId ∨ (action.isControl = true ∧ op.isFinalize = true))
    (hcontrol : action.isControl = true → op.leavesStatus turnId) : op.leavesStatus turnId := by
  cases op with
  | finalizeOnce target status errorCode errorDetail =>
      rintro rfl
      rcases hforeign rfl with hbeat | ⟨haction, _⟩
      · cases hbeat
      · exact hcontrol haction rfl
  | _ => trivial

theorem Op.foreign_xadd {action : ClusterAction}
    (hforeign : op.about = some turnId →
      op = .heartbeat turnId ∨ (action.isControl = true ∧ op.isFinalize = true))
    (event : ChatEvent) : op ≠ .xadd turnId event := by
  rintro rfl
  rcases hforeign rfl with hbeat | ⟨_, hfinal⟩
  · cases hbeat
  · cases hfinal

/-! ### The record of the execution -/

/-- What the record of the turn's execution has to do with its stream and its row. -/
structure ExecHistory.Agrees (turnId : Nat) (world : World) (history : ExecHistory) : Prop where
  late : history.late = false
  stream : world.streams turnId = history.appended
  last : TerminalEnds history.appended
  row : world.Outcome turnId history.requested
  completed : ∀ status won, history.requested = some (status, won) →
    (status = .completed ↔ history.hasDone = true)
  failed : ∀ status won, history.requested = some (status, won) → history.hasError = true →
    status = .failed

theorem ExecHistory.Agrees.congr {other : ExecHistory} (h : history.Agrees turnId world)
    (hlate : other.late = history.late) (happended : other.appended = history.appended)
    (hrequested : other.requested = history.requested) : other.Agrees turnId world where
  late := hlate.trans h.late
  stream := h.stream.trans happended.symm
  last := happended ▸ h.last
  row := hrequested ▸ h.row
  completed status won hstatus := by
    rw [ExecHistory.hasDone, happended]
    exact h.completed status won (hrequested ▸ hstatus)
  failed status won hstatus herror := by
    rw [ExecHistory.hasError, happended] at herror
    exact h.failed status won (hrequested ▸ hstatus) herror

/-- A frame after frames none of which is terminal. -/
theorem terminalLast_concat {events : List ChatEvent} (event : ChatEvent)
    (hquiet : events.any ChatEvent.isTerminal = false) : TerminalEnds (events ++ [event]) := by
  intro other hother
  rw [List.dropLast_concat] at hother
  exact Bool.eq_false_iff.mpr fun hterminal =>
    Bool.eq_false_iff.mp hquiet (List.any_eq_true.mpr ⟨other, hother, hterminal⟩)

theorem ExecHistory.Agrees.xadd (h : history.Agrees turnId world) (htimed : world.Timed)
    {event : ChatEvent} (hallowed : ExecAllowed cfg history (.xadd turnId event)) :
    (history.done turnId (.xadd turnId event) (world.perform self lost (.xadd turnId event)).1).Agrees
      turnId (world.perform self lost (.xadd turnId event)).2 where
  late := h.late
  stream := by
    rw [show (world.perform self lost (.xadd turnId event)).2.streams turnId =
      world.streams turnId ++ [event] from Function.update_self .., h.stream]
    rfl
  last := terminalLast_concat event (hallowed.2.2.1 h.late)
  row := h.row.kept htimed trivial
  completed status won hstatus := nomatch hallowed.2.1.symm.trans hstatus
  failed status won hstatus := nomatch hallowed.2.1.symm.trans hstatus

theorem ExecHistory.Agrees.finalizeOnce (h : history.Agrees turnId world)
    {status : TerminalStatus} {errorCode errorDetail : Option String}
    (hallowed : ExecAllowed cfg history (.finalizeOnce turnId status errorCode errorDetail)) :
    (history.done turnId (.finalizeOnce turnId status errorCode errorDetail)
      (world.perform self lost (.finalizeOnce turnId status errorCode errorDetail)).1).Agrees turnId
      (world.perform self lost (.finalizeOnce turnId status errorCode errorDetail)).2 := by
  obtain ⟨_, _, hrequested, hcompleted, hagrees, _⟩ := hallowed
  obtain ⟨hdone, herror⟩ := hagrees h.late
  obtain ⟨row, hrow, hactive, _⟩ := h.row
  obtain ⟨_, after, hafter, hstatus, _⟩ := World.finalizeOnce_row hrow (hactive hrequested)
  refine ⟨h.late, ?_, h.last, ⟨after, hafter, nofun, ?_⟩, ?_, ?_⟩
  · rw [World.streams_kept fun event hevent => by cases hevent]
    exact h.stream
  · rintro other won hother
    cases hother
    exact hstatus
  · rintro other won hother
    cases hother
    exact ⟨hcompleted, hdone⟩
  · rintro other won hother
    cases hother
    exact herror

/-- The record after an answer. -/
theorem ExecHistory.Agrees.done (h : history.Agrees turnId world) (htimed : world.Timed)
    (hallowed : ExecAllowed cfg history op) (hturn : cfg.turnId = turnId) :
    (history.done turnId op (world.perform self lost op).1).Agrees turnId
      (world.perform self lost op).2 := by
  by_cases hxadd : ∃ target event, op = .xadd target event
  · obtain ⟨target, event, rfl⟩ := hxadd
    obtain rfl : target = turnId := hallowed.1.trans hturn
    exact h.xadd htimed hallowed
  by_cases hfinal : op.isFinalize = true
  · cases op with
    | finalizeOnce target status errorCode errorDetail =>
        obtain rfl : target = turnId := hallowed.1.trans hturn
        exact h.finalizeOnce hallowed
    | _ => cases hfinal
  have hstatus : op.leavesStatus turnId := by
    cases op with
    | finalizeOnce => exact absurd rfl hfinal
    | _ => trivial
  have hxadd : ∀ target event, op ≠ .xadd target event := fun target event hop =>
    hxadd ⟨target, event, hop⟩
  have hkept : history.Agrees turnId (world.perform self lost op).2 :=
    { h with
      stream := (World.streams_kept (hxadd turnId)).trans h.stream
      row := h.row.kept htimed hstatus }
  exact hkept.congr ExecHistory.done_late (ExecHistory.done_appended hxadd)
    (ExecHistory.done_requested (by simpa using hfinal))

/-- A fault that is no matter. -/
theorem ExecHistory.Agrees.fault (h : history.Agrees turnId world) {raised : Fault}
    (hcalm : history.exposed = false ∨ history.swallowed op raised = true) :
    (history.fault op raised).Agrees turnId world := by
  refine h.congr ?_ rfl rfl
  rcases hcalm with hcalm | hcalm
  · simp [ExecHistory.fault, hcalm]
  · simp [ExecHistory.fault, hcalm]

/-- Before the turn is executed its stream is empty, and nobody has finalised it. -/
def World.Fresh (turnId : Nat) (world : World) : Prop :=
  world.streams turnId = [] ∧
    ∀ row, world.turns turnId = some row → row.status.isActive = true

theorem World.empty_fresh (users : Nat → Bool) : (World.empty users).Fresh turnId := by
  refine ⟨rfl, fun row hrow => ?_⟩
  simp [World.empty] at hrow

theorem World.Fresh.agrees (h : world.Fresh turnId) (hrow : (world.turns turnId).isSome) :
    ExecHistory.Agrees turnId world {} where
  late := rfl
  stream := h.1
  last _ hevent := absurd hevent List.not_mem_nil
  row := by
    obtain ⟨row, hrow⟩ := Option.isSome_iff_exists.mp hrow
    exact ⟨row, hrow, fun _ => h.2 row hrow, nofun⟩
  completed := nofun
  failed := nofun

theorem World.Fresh.kept (h : world.Fresh turnId) (htimed : world.Timed)
    (hstatus : op.leavesStatus turnId) (hxadd : ∀ event, op ≠ .xadd turnId event) :
    (world.perform self lost op).2.Fresh turnId := by
  refine ⟨(World.streams_kept hxadd).trans h.1, fun after hafter => ?_⟩
  cases hrow : world.turns turnId with
  | some row =>
      obtain ⟨later, hlater, _, hkept⟩ := htimed.status_kept hrow hstatus self lost
      obtain rfl := Option.some.inj (hafter.symm.trans hlater)
      exact hkept.trans (h.2 row hrow)
  | none =>
      have hstep : RowStep world op turnId (world.turns turnId)
          ((world.perform self lost op).2.turns turnId) := perform_row
      rw [hafter, hrow] at hstep
      generalize hlater : some after = later at hstep
      cases hstep with
      | unchanged => cases hlater
      | created _ payload =>
          obtain rfl := Option.some.inj hlater
          rfl

variable {cluster next : Cluster} {action : ClusterAction}

/-- The turn as its one execution sees it. -/
abbrev Cluster.Faithful (turnId : Nat) (cluster : Cluster) : Prop :=
  cluster.Sole turnId (World.Fresh turnId) fun world _ history => history.Agrees turnId world

theorem Cluster.alone_of_sole (hsole : cluster.sole turnId action = true) :
    cluster.alone turnId action = true := by
  unfold Cluster.alone
  unfold Cluster.sole at hsole
  split
  · exact hsole
  · split
    · next hop =>
        rw [Bool.or_eq_true]
        left
        simpa only [hop] using hsole
    · rfl
  · rfl

theorem Cluster.alone_deliver {cfg : ExecConfig} {again : Bool}
    (halone : cluster.alone turnId (.deliver cfg again) = true) (hturn : cfg.turnId = turnId) :
    cluster.undelivered turnId = true := by
  simpa [Cluster.alone, hturn] using halone

theorem Cluster.alone_control {id : Nat} (halone : cluster.alone turnId (.control id none) = true)
    (hop : cluster.op (.control id none) = some op) : op.leavesStatus turnId ∨
      ∃ row, cluster.world.turns turnId = some row ∧ row.status.isTerminal = true := by
  simp only [Cluster.alone, hop] at halone
  cases op with
  | finalizeOnce =>
      rcases Bool.or_eq_true_iff.mp halone with hother | hlate
      · exact .inl (show _ ≠ turnId by simpa using hother)
      · exact .inr ((Option.any_eq_true _ _).mp hlate)
  | _ => exact .inl trivial

/-- A row that is terminal is not finalised again. -/
theorem World.finalizeOnce_late {row : TurnRow} {status : TerminalStatus}
    {errorCode errorDetail : Option String} (hrow : world.turns turnId = some row)
    (hterminal : row.status.isTerminal = true) :
    (world.perform self lost (.finalizeOnce turnId status errorCode errorDetail)).2 = world := by
  simp [World.perform, World.updateTurn, hrow, TurnRow.finalizeOnce, hterminal]

/-- What the others do leaves the turn as it is. -/
theorem Cluster.Others.faithful (h : cluster.Others turnId action world)
    (htimed : cluster.world.Timed) (halone : cluster.alone turnId action = true) :
    (cluster.world.Fresh turnId → world.Fresh turnId) ∧
      ∀ history : ExecHistory, history.Agrees turnId cluster.world → history.Agrees turnId world := by
  cases h with
  | tick => exact ⟨fun hfresh => hfresh, fun _ hagrees => { hagrees with }⟩
  | bookkeeping => exact ⟨fun hfresh => hfresh, fun _ hagrees => { hagrees with }⟩
  | performed self lost op hop hraised hforeign hapart =>
      have hcontrol : action.isControl = true → op.leavesStatus turnId ∨
          ∃ row, cluster.world.turns turnId = some row ∧ row.status.isTerminal = true :=
        fun haction => by
          cases action with
          | control id raised =>
              obtain rfl : raised = none := hraised
              exact Cluster.alone_control halone hop
          | _ => cases haction
      by_cases hstatus : op.leavesStatus turnId
      · have hxadd := Op.foreign_xadd hforeign
        exact ⟨fun hfresh => hfresh.kept htimed hstatus hxadd, fun _ hagrees =>
          { hagrees with
            stream := (World.streams_kept hxadd).trans hagrees.stream
            row := hagrees.row.kept htimed hstatus }⟩
      · -- it comes too late
        cases op with
        | finalizeOnce target status errorCode errorDetail =>
            obtain rfl : target = turnId := not_ne_iff.mp hstatus
            have haction : action.isControl = true := by
              rcases hforeign rfl with hbeat | hfinal
              · cases hbeat
              · exact hfinal.1
            obtain ⟨row, hrow, hterminal⟩ := (hcontrol haction).resolve_left hstatus
            rw [World.finalizeOnce_late hrow hterminal]
            exact ⟨fun hfresh => hfresh, fun _ hagrees => hagrees⟩
        | _ => exact absurd trivial hstatus

theorem Cluster.Faithful.step (h : cluster.Faithful turnId) (hconforms : cluster.Conforms)
    (htimed : cluster.world.Timed) (hrowed : cluster.Rowed)
    (hallowed : cluster.alone turnId action = true ∧ cluster.calm turnId action = true)
    (hsteps : cluster.Steps action next) : next.Faithful turnId := by
  refine Cluster.Sole.step h hconforms hsteps ?_ ?_ ?_ ?_
  · rintro cfg again rfl hturn
    exact Cluster.alone_deliver hallowed.1 hturn
  · intro cfg hqueue _ hfresh
    exact hfresh.agrees (hrowed.queue turnId hqueue)
  · intro world hothers
    have hkept := hothers.faithful htimed hallowed.1
    exact ⟨hkept.1, fun _ history => hkept.2 history⟩
  · intro id execution after op raised haction hexecution hturn hawaits hagrees
    subst haction
    have hown := hconforms.executions execution (List.mem_of_getElem? hexecution)
    have hpermitted := hawaits.allowed hown
    generalize hnext : next.world = world at hawaits ⊢
    cases hawaits with
    | answered rest hprogram =>
        have hcfg : execution.cfg.turnId = turnId := hturn
        rw [show execution.turnId = turnId from hturn]
        exact hagrees.done htimed hpermitted hcfg
    | raised failure rest hprogram =>
        refine hagrees.fault ?_
        have hcalm := hallowed.2
        simp only [Cluster.calm, hexecution, Option.all_some, hprogram, Thread.op, hturn,
          ne_eq, not_true_eq_false, decide_false, Bool.false_or, Bool.or_eq_true,
          Bool.not_eq_true'] at hcalm
        exact hcalm

theorem Cluster.init_faithful (users : Nat → Bool) : (Cluster.init users).Faithful turnId := by
  refine ⟨fun id other execution later hexecution => ?_, fun _ => World.empty_fresh users,
    fun id execution hexecution => ?_⟩
  · simp [Cluster.init] at hexecution
  · simp [Cluster.init] at hexecution

theorem reach_faithful {users : Nat → Bool}
    (hreach : Reach Cluster.step (fun cluster action =>
      cluster.sole turnId action = true ∧ cluster.calm turnId action = true)
      (Cluster.init users) cluster) : cluster.Faithful turnId := by
  refine hreach.invariant_with (Cluster.Faithful turnId)
    (fun hbefore => And.intro (reach_conforms hbefore)
      (And.intro (reach_timed hbefore) (reach_rowed hbefore))) (Cluster.init_faithful users) ?_
  intro before action after hknown h hallowed hstep
  exact Cluster.Faithful.step h hknown.1 hknown.2.1 hknown.2.2
    ⟨Cluster.alone_of_sole hallowed.1, hallowed.2⟩ (Cluster.steps_of_step hstep)

/-- The stream and the row when the execution has come to its end. -/
theorem Cluster.Faithful.ended (h : cluster.Faithful turnId) (hconforms : cluster.Conforms)
    {id : Nat} {execution : Execution} (hexecution : cluster.executions[id]? = some execution)
    (hturn : execution.turnId = turnId) (hleased : execution.history.leased.isSome = true)
    (hended : execution.program.ended = true) :
    ∃ row, cluster.world.turns turnId = some row ∧
      ((∃ event ∈ cluster.world.streams turnId, event.isDone = true) ↔ row.status = .completed) ∧
      ((∃ event ∈ cluster.world.streams turnId, event.isError = true) → row.status = .failed) := by
  have hagrees := h.own id execution hexecution hturn
  have hown := hconforms.executions execution (List.mem_of_getElem? hexecution)
  rw [hagrees.stream]
  have houtcome : execution.history.hasTerminal = true → ∃ status won,
      execution.history.requested = some (status, won) := fun hterminal => by
    obtain ⟨⟨status, won⟩, hrequested⟩ := Option.isSome_iff_exists.mp
      ((hown.ended hended).published hagrees.late (hown.sound.unskipped hleased) hterminal)
    exact ⟨status, won, hrequested⟩
  obtain ⟨row, hrow, hactive, hstatus⟩ := hagrees.row
  refine ⟨row, hrow, ⟨fun hevent => ?_, fun hcompleted => ?_⟩, fun hevent => ?_⟩
  · have hdone : execution.history.hasDone = true := List.any_eq_true.mpr hevent
    obtain ⟨status, won, hrequested⟩ := houtcome (by simp [ExecHistory.hasTerminal_eq, hdone])
    rw [hstatus status won hrequested, (hagrees.completed status won hrequested).mpr hdone]
    rfl
  · cases hrequested : execution.history.requested with
    | none =>
        have hopen := hactive hrequested
        simp [hcompleted, TurnStatus.isTerminal] at hopen
    | some outcome =>
        have hvalue := hstatus outcome.1 outcome.2 hrequested
        have hsame : outcome.1 = .completed := Subtype.ext (hvalue.symm.trans hcompleted)
        exact List.any_eq_true.mp ((hagrees.completed outcome.1 outcome.2 hrequested).mp hsame)
  · have herror : execution.history.hasError = true := List.any_eq_true.mpr hevent
    obtain ⟨status, won, hrequested⟩ := houtcome (by simp [ExecHistory.hasTerminal_eq, herror])
    rw [hstatus status won hrequested, hagrees.failed status won hrequested herror]
    rfl

/-- **The terminal frame agrees with the row.** When the turn has one execution, which alone finalises
it, and nothing that matters is raised between the terminal frame and the outcome, a terminal frame is
the last in the stream, and after the execution a done frame is there just if the row is COMPLETED, an
error frame only if it is FAILED. -/
theorem terminal_agrees {users : Nat → Bool}
    (hreach : Reach Cluster.step (fun cluster action =>
      cluster.sole turnId action = true ∧ cluster.calm turnId action = true)
      (Cluster.init users) cluster) {id : Nat} {execution : Execution}
    (hexecution : cluster.executions[id]? = some execution) (hturn : execution.turnId = turnId) :
    TerminalEnds (cluster.world.streams turnId) ∧
      (execution.history.leased.isSome = true → execution.program.ended = true →
        ∃ row, cluster.world.turns turnId = some row ∧
          ((∃ event ∈ cluster.world.streams turnId, event.isDone = true) ↔
            row.status = .completed) ∧
          ((∃ event ∈ cluster.world.streams turnId, event.isError = true) →
            row.status = .failed)) := by
  have hfaithful := reach_faithful hreach
  have hagrees := hfaithful.own id execution hexecution hturn
  exact ⟨hagrees.stream ▸ hagrees.last, fun hleased hended =>
    hfaithful.ended (reach_conforms hreach) hexecution hturn hleased hended⟩

end

/-! ### A turn that is answered, and a fault after its done frame -/

def answered : ExecConfig :=
  ⟨1, 1, none, 0, 60, 1, ⟨.ok ("thread", "turn"), [.event (.token "Hi"), .event (.done "Hi")]⟩⟩

/-- The turn is created and enqueued, and its execution does this. -/
def executedTurn (actions : List ClusterAction) : List ClusterAction :=
  .spawn (.handler ⟨1, 1, 1, .admin, false, false, false, ""⟩) ::
    List.replicate 3 (.control 0 none) ++ .deliver answered false :: actions

def executedRun (actions : List ClusterAction) : Option Cluster :=
  run Cluster.step (Cluster.init fun _ => true) (executedTurn actions)

/-- Of each frame of the turn whether it is a done and an error frame, the status of the row, and
whether the execution has come to its end. -/
def Cluster.outcome (cluster : Cluster) : List (Bool × Bool) × Option TurnStatus × List Bool :=
  ((cluster.world.streams 1).map fun event => (event.isDone, event.isError),
    (cluster.world.turns 1).map TurnRow.status,
    cluster.executions.map fun execution => execution.program.ended)

theorem terminal_agrees_answered : ∃ cluster,
    executedRun (List.replicate 32 (.advance 0 none)) = some cluster ∧
    cluster.outcome = ([(false, false), (true, false)], some .completed, [true]) ∧
    TerminalEnds (cluster.world.streams 1) := by
  have hallowed : RunAllowed Cluster.step (fun cluster action =>
      cluster.sole 1 action = true ∧ cluster.calm 1 action = true) (Cluster.init fun _ => true)
      (executedTurn (List.replicate 32 (.advance 0 none))) := by decide
  have hseen : (executedRun (List.replicate 32 (.advance 0 none))).map (fun cluster =>
      (cluster.outcome, cluster.executions.map Execution.turnId)) =
      some (([(false, false), (true, false)], some .completed, [true]), [1]) := by decide
  obtain ⟨cluster, hrun, hcluster⟩ := Option.map_eq_some_iff.mp hseen
  obtain ⟨houtcome, hturns⟩ := Prod.mk.inj hcluster
  obtain ⟨execution, hexecutions, hturn⟩ := List.map_eq_singleton_iff.mp hturns
  have hexecution : cluster.executions[0]? = some execution := by
    rw [hexecutions]
    rfl
  exact ⟨cluster, hrun, houtcome,
    (terminal_agrees (reach_of_run hrun hallowed) hexecution hturn).1⟩

/-- The EXPIRE of the stream fails after the done frame: an error frame follows it, and the turn is
FAILED. -/
theorem terminal_twice :
    (executedRun (List.replicate 23 (.advance 0 none) ++
      .advance 0 (some (.redisError "unreachable")) :: List.replicate 9 (.advance 0 none))).map
        Cluster.outcome =
      some ([(false, false), (true, false), (false, true)], some .failed, [true]) := by
  decide

end CodexServer
