import CodexServer.Proof.RowRuns

/-!
# The Codex turn the row names

`mark_running` writes the ids of the Codex turn once, and a marked row keeps them. So an execution
whose mark was answered with `True` works on the Codex turn of the row for good; one whose mark was
answered with `False` goes on all the same.
-/

open Transition

namespace CodexServer

section

variable {world : World} {self turnId : Nat} {lost : Bool} {op : Op} {row : TurnRow}
  {cluster next : Cluster} {action : ClusterAction} {id : Nat}

/-! ### The ids of the Codex turn -/

/-- The row of the turn is marked with these ids of the thread and the turn. -/
def World.Names (world : World) (turnId : Nat) (ids : String × String) : Prop :=
  ∃ row, world.turns turnId = some row ∧ row.status ≠ .starting ∧
    row.codexThreadId = some ids.1 ∧ row.codexTurnId = some ids.2

theorem World.Names.step {ids : String × String} (h : cluster.world.Names turnId ids)
    (htimed : cluster.world.Timed) (hsteps : cluster.Steps action next) :
    next.world.Names turnId ids := by
  obtain ⟨row, hrow, hmarked, hthread, hturn⟩ := h
  obtain ⟨after, hafter, hleads⟩ := hsteps.row_leads htimed hrow
  obtain ⟨hstatus, hthread', hturn'⟩ := hleads.marked hmarked
  exact ⟨after, hafter, hstatus, hthread'.trans hthread, hturn'.trans hturn⟩

/-- What `mark_running` answers and leaves behind. -/
theorem World.markRunning_names {threadId codexTurnId : String}
    (hanswer : (world.perform self lost (.markRunning turnId threadId codexTurnId)).1 = true) :
    (world.perform self lost (.markRunning turnId threadId codexTurnId)).2.Names turnId
      (threadId, codexTurnId) := by
  simp only [World.perform, World.updateTurn] at hanswer ⊢
  split at hanswer
  · rename_i after hafter
    obtain ⟨row, _, hmarked⟩ := Option.bind_eq_some_iff.mp hafter
    obtain ⟨_, hrow⟩ := Option.ite_none_right_eq_some.mp hmarked
    cases hrow
    exact ⟨_, Function.update_self .., by simp, rfl, rfl⟩
  · cases hanswer

theorem World.markRunning_true {threadId codexTurnId : String}
    (hrow : world.turns turnId = some row) (hstarting : row.status = .starting) :
    (world.perform self lost (.markRunning turnId threadId codexTurnId)).1 = true := by
  simp [World.perform, World.updateTurn, hrow, TurnRow.markRunning, hstarting]

/-- `mark_running`, when it is executed, finds its row STARTING. -/
def Cluster.marksStarting (cluster : Cluster) (action : ClusterAction) : Bool :=
  match cluster.op action, action.raised with
  | some (.markRunning turnId _ _), none =>
      (cluster.world.turns turnId).any fun row => row.status = .starting
  | _, _ => true

theorem Cluster.marksStarting_row {threadId codexTurnId : String}
    (h : cluster.marksStarting action = true)
    (hop : cluster.op action = some (.markRunning turnId threadId codexTurnId))
    (hraised : action.raised = none) :
    ∃ row, cluster.world.turns turnId = some row ∧ row.status = .starting := by
  simp only [Cluster.marksStarting, hop, hraised, Option.any_eq_true, decide_eq_true_eq] at h
  exact h

/-- What the record of an execution has to do with its row. -/
structure ExecHistory.Marked (world : World) (cfg : ExecConfig) (history : ExecHistory) : Prop where
  named : ∀ ids, history.codex = some ids → history.marked = some true →
    world.Names cfg.turnId ids
  inTime : history.marked ≠ some false
  /-- All that is appended before a notification has come in are errors. -/
  shown : ∀ event ∈ history.appended, event.isError = false → history.received = true

theorem ExecHistory.Marked.later {cfg : ExecConfig} {history : ExecHistory}
    (h : history.Marked cluster.world cfg) (htimed : cluster.world.Timed)
    (hsteps : cluster.Steps action next) : history.Marked next.world cfg :=
  { h with named := fun ids hcodex hmarked => (h.named ids hcodex hmarked).step htimed hsteps }

/-- The record after an answer. -/
theorem ExecHistory.Marked.done {cfg : ExecConfig} {history : ExecHistory}
    (h : history.Marked (world.perform self lost op).2 cfg) (hsound : history.Sound cfg)
    (hallowed : ExecAllowed cfg history op)
    (hstarting : ∀ turnId threadId codexTurnId, op = .markRunning turnId threadId codexTurnId →
      ∃ row, world.turns turnId = some row ∧ row.status = .starting) :
    (history.done cfg.turnId op (world.perform self lost op).1).Marked
      (world.perform self lost op).2 cfg := by
  cases op with
  | markRunning turnId threadId codexTurnId =>
      obtain ⟨rfl, hcodex, _⟩ := hallowed
      obtain ⟨row, hrow, hstatus⟩ := hstarting _ _ _ rfl
      have hanswer : (world.perform self lost (.markRunning cfg.turnId threadId codexTurnId)).1 =
          true := World.markRunning_true hrow hstatus
      refine ⟨fun ids hids _ => ?_, ?_, h.shown⟩
      · obtain rfl : ids = (threadId, codexTurnId) := Option.some.inj (hids.symm.trans hcodex)
        exact World.markRunning_names hanswer
      · simp [ExecHistory.done, hanswer]
  | external call =>
      cases call with
      | startTurn reply =>
          cases reply with
          | ok ids =>
              -- before the ids are known there is no mark
              have hcodex : history.codex = none := hallowed
              refine ⟨fun _ _ hmarked => ?_, h.inTime, h.shown⟩
              have := hsound.codex (Option.isSome_iff_exists.mpr ⟨_, hmarked⟩)
              simp [hcodex] at this
          | error detail => exact h
      | _ => exact h
  | nextNote note =>
      cases note with
      | event event => exact ⟨h.named, h.inTime, fun _ _ _ => rfl⟩
      | idle probed => exact ⟨h.named, h.inTime, fun _ _ _ => rfl⟩
  | xadd turnId event =>
      refine ⟨h.named, h.inTime, fun other hother herror => ?_⟩
      rcases List.mem_append.mp hother with hold | hnew
      · exact h.shown other hold herror
      · obtain rfl := List.mem_singleton.mp hnew
        exact hallowed.2.2.2.1.resolve_left (by simp [herror])
  | _ => exact ⟨h.named, h.inTime, h.shown⟩

theorem Cluster.Records.marked_step
    (h : cluster.Records fun world _ cfg history => history.Marked world cfg)
    (hconforms : cluster.Conforms) (htimed : cluster.world.Timed)
    (hstarting : cluster.marksStarting action = true) (hsteps : cluster.Steps action next) :
    next.Records fun world _ cfg history => history.Marked world cfg := by
  refine h.step hsteps (fun _ _ => ⟨nofun, nofun, nofun⟩) ?_ ?_
  · intro id execution _ _ hmarked
    exact hmarked.later htimed hsteps
  · intro id execution after op raised haction hexecution hawaits hmarked
    subst haction
    have hown := hconforms.executions execution (List.mem_of_getElem? hexecution)
    have hallowed := hawaits.allowed hown
    have hlater := hmarked.later htimed hsteps
    rw [hawaits.cfg_eq]
    generalize hnext : next.world = world at hawaits hlater
    cases hawaits with
    | answered rest hprogram hrunning =>
        refine hlater.done hown.sound hallowed fun turnId threadId codexTurnId hop => ?_
        have hmarks : cluster.op (.advance id none) =
            some (.markRunning turnId threadId codexTurnId) := by
          simp [Cluster.op, hexecution, hprogram, Thread.op, hop]
        exact Cluster.marksStarting_row hstarting hmarks rfl
    | raised failure rest => exact ⟨hlater.named, hlater.inTime, hlater.shown⟩

theorem reach_marked {users : Nat → Bool}
    (hreach : Reach Cluster.step (fun cluster action => cluster.marksStarting action = true)
      (Cluster.init users) cluster) :
    cluster.Records fun world _ cfg history => history.Marked world cfg := by
  refine hreach.invariant_with
    (fun cluster => cluster.Records fun world _ cfg history => history.Marked world cfg)
    (fun hbefore => And.intro (reach_conforms hbefore) (reach_timed hbefore)) ?_ ?_
  · exact fun id execution hexecution => by simp [Cluster.init] at hexecution
  · intro before action after hknown h hstarting hstep
    exact h.marked_step hknown.1 hknown.2 hstarting (Cluster.steps_of_step hstep)

/-! ### What is done for a Codex turn -/

/-- A frame for the client that is no error, a message, or the completion of the turn. -/
def Op.isOutcome : Op → Bool
  | .xadd _ event => !event.isError
  | .persistPartial .. | .persistFinal .. => true
  | .finalizeOnce _ status _ _ => status.val = .completed
  | _ => false

/-- Nothing comes out of an execution before a notification has come in. -/
theorem ExecHistory.Marked.received {cfg : ExecConfig} {history : ExecHistory}
    (h : history.Marked world cfg) (hallowed : ExecAllowed cfg history op)
    (hop : op.isOutcome = true) : history.received = true := by
  cases op with
  | xadd turnId event =>
      have herror : event.isError = false := by simpa [Op.isOutcome] using hop
      exact hallowed.2.2.2.1.resolve_left (by simp [herror])
  | persistPartial => exact hallowed.2.2.1
  | persistFinal => exact hallowed.2.2.1
  | finalizeOnce turnId status errorCode errorDetail =>
      have hcompleted : status = .completed := Subtype.ext (of_decide_eq_true hop)
      obtain ⟨event, hevent, hdone⟩ := List.any_eq_true.mp (hallowed.2.2.2.1 hcompleted)
      refine h.shown event hevent ?_
      unfold ChatEvent.isDone at hdone
      unfold ChatEvent.isError
      split at hdone
      · rename_i hkind
        rw [hkind]
      · cases hdone
  | _ => cases hop

/-- **The row names the Codex turn that is running.** In a run in which every `mark_running` finds
its row STARTING, an execution that a notification has come in to, or that is about to do anything
with one, works on the Codex turn of its row; and none has been refused the mark. -/
theorem row_names_running {users : Nat → Bool}
    (hreach : Reach Cluster.step (fun cluster action => cluster.marksStarting action = true)
      (Cluster.init users) cluster) {execution : Execution}
    (hexecution : cluster.executions[id]? = some execution) :
    ((execution.history.received = true ∨
        ∃ op, execution.program.op = some op ∧ op.isOutcome = true) →
      ∃ ids, execution.history.codex = some ids ∧ cluster.world.Names execution.turnId ids) ∧
    execution.history.marked ≠ some false := by
  have hmarked := reach_marked hreach id execution hexecution
  have hown := (reach_conforms hreach).executions execution (List.mem_of_getElem? hexecution)
  refine ⟨fun hworks => ?_, hmarked.inTime⟩
  have hreceived : execution.history.received = true := by
    rcases hworks with hreceived | ⟨op, hop, houtcome⟩
    · exact hreceived
    · exact hmarked.received (hown.allowed hop) houtcome
  have hanswered := hown.sound.marked hreceived
  obtain ⟨ids, hids⟩ := Option.isSome_iff_exists.mp (hown.sound.codex hanswered)
  obtain ⟨answer, hanswer⟩ := Option.isSome_iff_exists.mp hanswered
  refine ⟨ids, hids, hmarked.named ids hids ?_⟩
  cases answer with
  | true => exact hanswer
  | false => exact absurd hanswer hmarked.inTime

end

/-! ### A turn that is redelivered after its row was marked -/

/-- A turn of Codex with one notification. -/
def greeting (codexTurnId : String) : ExecConfig :=
  ⟨1, 1, none, 0, 60, 1, ⟨.ok ("thread", codexTurnId), [.event (.token "Hi")]⟩⟩

/-- The turn is created and enqueued, and this many awaits of its execution are answered. -/
def firstDelivery (awaits : Nat) : List ClusterAction :=
  .spawn (.handler ⟨1, 1, 1, .admin, false, false, false, ""⟩) ::
    List.replicate 3 (.control 0 none) ++
  .deliver (greeting "first") false :: List.replicate awaits (.advance 0 none)

/-- The process ends once the row is marked, and half a minute later the turn is executed again. -/
def redelivery : List ClusterAction :=
  firstDelivery 9 ++ .crash 1 :: List.replicate 30 .tick ++
  .deliver (greeting "second") false :: List.replicate 13 (.advance 1 none)

def greetingRun (actions : List ClusterAction) : Option Cluster :=
  run Cluster.step (Cluster.init fun _ => true) actions

/-- The Codex turn of an execution with the answer of its `mark_running`, the frames of its turn, and
the status and the Codex turn of the row. -/
structure Sight where
  codex : Option (String × String)
  marked : Option Bool
  stream : List ChatEvent
  status : Option TurnStatus
  codexTurnId : Option String
deriving DecidableEq

def Cluster.sight (cluster : Cluster) (id : Nat) : Option Sight :=
  cluster.executions[id]?.map fun execution =>
    { codex := execution.history.codex
      marked := execution.history.marked
      stream := cluster.world.streams execution.turnId
      status := (cluster.world.turns execution.turnId).map TurnRow.status
      codexTurnId := (cluster.world.turns execution.turnId).bind TurnRow.codexTurnId }

theorem row_names_running_first : ∃ cluster, greetingRun (firstDelivery 13) = some cluster ∧
    cluster.sight 0 = some ⟨some ("thread", "first"), some true, [⟨.token "Hi", ""⟩],
      some .running, some "first"⟩ ∧
    ∀ execution, cluster.executions[0]? = some execution →
      execution.history.marked ≠ some false := by
  have hallowed : RunAllowed Cluster.step (fun cluster action => cluster.marksStarting action = true)
      (Cluster.init fun _ => true) (firstDelivery 13) := by decide
  have hsight : (greetingRun (firstDelivery 13)).map (fun cluster => cluster.sight 0) =
      some (some ⟨some ("thread", "first"), some true, [⟨.token "Hi", ""⟩],
        some .running, some "first"⟩) := by decide
  obtain ⟨cluster, hrun, hcluster⟩ := Option.map_eq_some_iff.mp hsight
  exact ⟨cluster, hrun, hcluster, fun execution hexecution =>
    (row_names_running (reach_of_run hrun hallowed) hexecution).2⟩

/-- The second execution is refused the mark, forwards its Codex turn all the same, and the row,
which is RUNNING, names the first one. -/
theorem row_names_another : (greetingRun redelivery).map (fun cluster => cluster.sight 1) =
    some (some ⟨some ("thread", "second"), some false, [⟨.token "Hi", ""⟩],
      some .running, some "first"⟩) := by
  decide

end CodexServer
