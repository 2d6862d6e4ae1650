import CodexServer.Proof.ExecutionConduct
import CodexServer.Proof.ControlConduct

/-!
# One step of the cluster

What a step can be is said once, by `Steps`. Every thread of a run keeps to its rules, so a step of
a thread is one that the rules allow, and a thread that has ended has a record as the rules say.
-/

open Transition

namespace CodexServer

/-! ### Inversion -/

/-- One await of an execution: answered, or raised without an effect. -/
inductive Execution.Awaits (execution : Execution) (self : Nat) (world : World) (op : Op) :
    Option Fault → Execution → World → Prop
  | answered (next : Except Fault op.Val → Thread) (hprogram : execution.program = .call op next)
      (hrunning : execution.running = true) :
      Awaits execution self world op none
        { execution with
          program := next (.ok (world.perform self execution.ownershipLost op).1)
          heartbeat := execution.heartbeatAfter op
          history := execution.history.done execution.turnId op
            (world.perform self execution.ownershipLost op).1 }
        (world.perform self execution.ownershipLost op).2
  | raised (failure : Fault) (next : Except Fault op.Val → Thread)
      (hprogram : execution.program = .call op next) (hrunning : execution.running = true)
      (hlocal : op.isLocal = false) :
      Awaits execution self world op (some failure)
        { execution with
          program := next (.error failure)
          heartbeat := execution.heartbeatAfter op
          history := execution.history.fault op failure }
        world

inductive Control.Awaits (control : Control) (self : Nat) (world : World) (op : Op) :
    Option Fault → Control → World → Prop
  | answered (next : Except Fault op.Val → Thread) (hprogram : control.program = .call op next)
      (hrunning : control.running = true) :
      Awaits control self world op none
        { control with
          program := next (.ok (world.perform self false op).1)
          history := control.history.done op (world.perform self false op).1 }
        (world.perform self false op).2
  | raised (failure : Fault) (next : Except Fault op.Val → Thread)
      (hprogram : control.program = .call op next) (hrunning : control.running = true)
      (hlocal : op.isLocal = false) :
      Awaits control self world op (some failure)
        { control with
          program := next (.error failure)
          history := control.history.fault op failure }
        world

/-- What a step of the cluster is. -/
inductive Cluster.Steps (cluster : Cluster) : ClusterAction → Cluster → Prop
  | tick : Steps cluster .tick { cluster with world := cluster.world.tick }
  | deliver (cfg : ExecConfig) (again : Bool) (hqueue : cluster.world.queue cfg.turnId = true) :
      Steps cluster (.deliver cfg again)
        { cluster with
          world := { cluster.world with
            queue := Function.update cluster.world.queue cfg.turnId again }
          executions := cluster.executions ++ [Execution.start cfg] }
  | redeliver (turnId : Nat) (henqueued : cluster.world.enqueued turnId = true) :
      Steps cluster (.redeliver turnId)
        { cluster with
          world := { cluster.world with queue := Function.update cluster.world.queue turnId true } }
  | advance (id : Nat) (raised : Option Fault) {execution after : Execution} {op : Op}
      {world : World} (hexecution : cluster.executions[id]? = some execution)
      (hawaits : execution.Awaits id cluster.world op raised after world) :
      Steps cluster (.advance id raised)
        { cluster with world := world, executions := cluster.executions.set id after }
  | beat (id : Nat) (raised : Option Fault) {execution : Execution} {heartbeat : Heartbeat}
      (hexecution : cluster.executions[id]? = some execution)
      (hheartbeat : execution.heartbeat = some heartbeat) (hrunning : execution.running = true)
      (hpoint : heartbeat.point ≠ .stopped) (hraised : raised.isNone ∨ heartbeat.op.isSome) :
      Steps cluster (.beat id raised)
        { cluster with
          world := (heartbeat.await cluster.world id raised).2
          executions := cluster.executions.set id { execution with
            heartbeat := some (heartbeat.next (heartbeat.await cluster.world id raised).1) } }
  | spawn (kind : ControlKind) (hkind : ∀ turnId acquisition, kind ≠ .listener turnId acquisition) :
      Steps cluster (.spawn kind)
        { cluster with controls := cluster.controls ++ [Control.start kind] }
  | notice (turnId acquisition : Nat) (hnotice : acquisition ∈ cluster.world.notices turnId) :
      Steps cluster (.spawn (.listener turnId acquisition))
        { cluster with
          world := cluster.world.withoutNotice turnId acquisition
          controls := cluster.controls ++ [Control.start (.listener turnId acquisition)] }
  | control (id : Nat) (raised : Option Fault) {control after : Control} {op : Op} {world : World}
      (hcontrol : cluster.controls[id]? = some control)
      (hawaits : control.Awaits id cluster.world op raised after world) :
      Steps cluster (.control id raised)
        { cluster with world := world, controls := cluster.controls.set id after }
  | crash (holder : Nat) : Steps cluster (.crash holder) (cluster.crash holder)
  | quit (id : Nat) {control : Control} (hcontrol : cluster.controls[id]? = some control) :
      Steps cluster (.quit id) { cluster with controls := cluster.controls.set id control.stop }
  | miss (turnId acquisition : Nat) (hnotice : acquisition ∈ cluster.world.notices turnId) :
      Steps cluster (.miss turnId acquisition)
        { cluster with world := cluster.world.withoutNotice turnId acquisition }

theorem Execution.advance_awaits {execution after : Execution} {self : Nat} {world later : World}
    {raised : Option Fault} (h : execution.advance self raised world = some (after, later)) :
    ∃ op, execution.Awaits self world op raised after later := by
  unfold Execution.advance at h
  split at h
  · rename_i op next hprogram
    refine ⟨op, ?_⟩
    split at h
    · rename_i hcondition
      obtain ⟨rfl, rfl⟩ := Prod.mk.inj (Option.some.inj h)
      cases raised with
      | none => exact .answered next hprogram hcondition.1
      | some failure =>
          exact .raised failure next hprogram hcondition.1 (by simpa using hcondition.2)
    · cases h
  · cases h
  · rename_i out _ _
    exact nomatch out

theorem Control.advance_awaits {control after : Control} {self : Nat} {world later : World}
    {raised : Option Fault} (h : control.advance self raised world = some (after, later)) :
    ∃ op, control.Awaits self world op raised after later := by
  unfold Control.advance at h
  split at h
  · rename_i op next hprogram
    refine ⟨op, ?_⟩
    split at h
    · rename_i hcondition
      obtain ⟨rfl, rfl⟩ := Prod.mk.inj (Option.some.inj h)
      cases raised with
      | none => exact .answered next hprogram hcondition.1
      | some failure =>
          exact .raised failure next hprogram hcondition.1 (by simpa using hcondition.2)
    · cases h
  · cases h
  · rename_i out _ _
    exact nomatch out

theorem Cluster.steps_of_step {cluster next : Cluster} {action : ClusterAction}
    (h : cluster.step action = some next) : cluster.Steps action next := by
  cases action with
  | tick =>
      cases h
      exact .tick
  | deliver cfg again =>
      simp only [Cluster.step, Cluster.deliver] at h
      split at h
      · rename_i hqueue
        cases h
        exact .deliver cfg again hqueue
      · cases h
  | redeliver turnId =>
      simp only [Cluster.step, Cluster.redeliver] at h
      split at h
      · rename_i henqueued
        cases h
        exact .redeliver turnId henqueued
      · cases h
  | advance id raised =>
      obtain ⟨execution, hexecution, h⟩ := Option.bind_eq_some_iff.mp h
      obtain ⟨⟨after, world⟩, hadvance, h⟩ := Option.bind_eq_some_iff.mp h
      obtain ⟨op, hawaits⟩ := Execution.advance_awaits hadvance
      cases h
      exact .advance id raised hexecution hawaits
  | beat id raised =>
      obtain ⟨execution, hexecution, h⟩ := Option.bind_eq_some_iff.mp h
      obtain ⟨⟨after, world⟩, hbeat, h⟩ := Option.bind_eq_some_iff.mp h
      cases h
      unfold Execution.beat at hbeat
      split at hbeat
      · rename_i heartbeat hheartbeat
        split at hbeat
        · rename_i hcondition
          obtain ⟨rfl, rfl⟩ := Prod.mk.inj (Option.some.inj hbeat)
          exact .beat id raised hexecution hheartbeat hcondition.1 hcondition.2.1 hcondition.2.2
        · cases hbeat
      · cases hbeat
  | spawn kind =>
      cases kind with
      | listener turnId acquisition =>
          simp only [Cluster.step, Cluster.spawn] at h
          split at h
          · rename_i hnotice
            cases h
            exact .notice turnId acquisition hnotice
          · cases h
      | handler | sweep | inline | shutdown =>
          cases h
          exact .spawn _ nofun
  | control id raised =>
      obtain ⟨control, hcontrol, h⟩ := Option.bind_eq_some_iff.mp h
      obtain ⟨⟨after, world⟩, hadvance, h⟩ := Option.bind_eq_some_iff.mp h
      obtain ⟨op, hawaits⟩ := Control.advance_awaits hadvance
      cases h
      exact .control id raised hcontrol hawaits
  | crash holder =>
      cases h
      exact .crash holder
  | quit id =>
      obtain ⟨control, hcontrol, h⟩ := Option.bind_eq_some_iff.mp h
      cases h
      exact .quit id hcontrol
  | miss turnId acquisition =>
      simp only [Cluster.step, Cluster.miss] at h
      split at h
      · rename_i hnotice
        cases h
        exact .miss turnId acquisition hnotice
      · cases h

/-! ### The rules along a run -/

/-- What the rules make of a record. -/
structure ExecHistory.Sound (cfg : ExecConfig) (history : ExecHistory) : Prop where
  holder : ∀ holder, history.leased = some holder → holder = cfg.holder
  unskipped : history.leased.isSome → history.skipped = false
  marked : history.received → history.marked.isSome
  codex : history.marked.isSome → history.codex.isSome

/-- The rest of the execution keeps to the rules. -/
structure Execution.Conforms (execution : Execution) : Prop where
  program : execution.program.wp (execMonitor execution.cfg) (fun out _ _ => nomatch out)
    (fun _ history => ExecEnded history) execution.history
  sound : execution.history.Sound execution.cfg
  heartbeat : ∀ heartbeat, execution.heartbeat = some heartbeat →
    heartbeat.turnId = execution.turnId ∧ heartbeat.holder = execution.cfg.holder

def Control.Conforms (control : Control) : Prop :=
  control.program.wp (controlMonitor control.kind) (fun out _ _ => nomatch out)
    (fun _ history => ControlEnded control.kind history) control.history

structure Cluster.Conforms (cluster : Cluster) : Prop where
  executions : ∀ execution ∈ cluster.executions, execution.Conforms
  controls : ∀ control ∈ cluster.controls, control.Conforms

section

variable {execution after : Execution} {control later : Control} {self : Nat} {world world' : World}
  {op : Op} {raised : Option Fault}

theorem Execution.Awaits.program_eq (h : execution.Awaits self world op raised after world') :
    ∃ next, execution.program = .call op next := by
  cases h with
  | answered next hprogram => exact ⟨next, hprogram⟩
  | raised failure next hprogram => exact ⟨next, hprogram⟩

theorem Execution.Awaits.running (h : execution.Awaits self world op raised after world') :
    execution.running = true := by
  cases h with
  | answered next hprogram hrunning => exact hrunning
  | raised failure next hprogram hrunning => exact hrunning

theorem Execution.Awaits.cfg_eq (h : execution.Awaits self world op raised after world') :
    after.cfg = execution.cfg := by
  cases h <;> rfl

/-- A step of an execution is one that the rules allow. -/
theorem Execution.Awaits.allowed (h : execution.Awaits self world op raised after world')
    (hconforms : execution.Conforms) : ExecAllowed execution.cfg execution.history op := by
  obtain ⟨next, hprogram⟩ := h.program_eq
  have hwp := hconforms.program
  rw [hprogram] at hwp
  exact hwp.1

theorem Control.Awaits.program_eq (h : control.Awaits self world op raised later world') :
    ∃ next, control.program = .call op next := by
  cases h with
  | answered next hprogram => exact ⟨next, hprogram⟩
  | raised failure next hprogram => exact ⟨next, hprogram⟩

theorem Control.Awaits.kind_eq (h : control.Awaits self world op raised later world') :
    later.kind = control.kind := by
  cases h <;> rfl

theorem Control.Awaits.allowed (h : control.Awaits self world op raised later world')
    (hconforms : control.Conforms) : ControlAllowed control.kind control.history op := by
  obtain ⟨next, hprogram⟩ := h.program_eq
  unfold Control.Conforms at hconforms
  rw [hprogram] at hconforms
  exact hconforms.1

theorem Control.Awaits.conforms (h : control.Awaits self world op raised later world')
    (hconforms : control.Conforms) : later.Conforms := by
  unfold Control.Conforms at hconforms
  cases h with
  | answered next hprogram =>
      rw [hprogram] at hconforms
      exact hconforms.2 (.ok _)
  | raised failure next hprogram =>
      rw [hprogram] at hconforms
      exact hconforms.2 (.error failure)

theorem ExecHistory.Sound.fault {cfg : ExecConfig} {history : ExecHistory} {failure : Fault}
    (h : history.Sound cfg) (hallowed : ExecAllowed cfg history op) :
    (history.fault op failure).Sound cfg where
  holder := h.holder
  unskipped hleased := by
    have hunskipped := h.unskipped hleased
    cases op with
    | setLeaseNx turnId holder =>
        have hnone : history.leased = none := hallowed.2.2.1
        simp [hnone] at hleased
    | _ => simpa [ExecHistory.fault, Op.isLeaseAcquisition] using hunskipped
  marked := h.marked
  codex := h.codex

theorem ExecHistory.Sound.done {cfg : ExecConfig} {history : ExecHistory} (h : history.Sound cfg)
    (hallowed : ExecAllowed cfg history op) (value : op.Val) :
    (history.done cfg.turnId op value).Sound cfg := by
  cases op with
  | setLeaseNx turnId holder =>
      cases value with
      | true => exact {
          holder := fun other hother => (Option.some.inj hother).symm.trans hallowed.2.1
          unskipped := fun _ => (Bool.or_false _).trans hallowed.2.2.2
          marked := h.marked
          codex := h.codex }
      | false => exact {
          holder := nofun
          unskipped := nofun
          marked := h.marked
          codex := h.codex }
  | getActive chatId =>
      have hnone : history.leased = none := hallowed
      exact { h with unskipped := fun hleased => nomatch hnone.symm ▸ hleased }
  | markRunning turnId threadId codexTurnId =>
      have hcodex : history.codex = some (threadId, codexTurnId) := hallowed.2.1
      exact { h with
        marked := fun _ => rfl
        codex := fun _ => Option.isSome_iff_exists.mpr ⟨_, hcodex⟩ }
  | nextNote note =>
      cases note with
      | event event => exact { h with marked := fun _ => hallowed.2 }
      | idle probed => exact { h with marked := fun _ => hallowed.2 }
  | external call =>
      cases call with
      | startTurn reply =>
          cases reply with
          | ok ids => exact { h with codex := fun _ => rfl }
          | error detail => exact h
      | _ => exact h
  | _ => exact { h with }

theorem Execution.Awaits.conforms (h : execution.Awaits self world op raised after world')
    (hconforms : execution.Conforms) : after.Conforms := by
  have hallowed := h.allowed hconforms
  have hwp := hconforms.program
  have hheartbeat : ∀ heartbeat, execution.heartbeatAfter op = some heartbeat →
      heartbeat.turnId = execution.turnId ∧ heartbeat.holder = execution.cfg.holder := by
    intro heartbeat hafter
    cases op with
    | startHeartbeat turnId chatId holder =>
        cases hafter
        exact hallowed
    | stopHeartbeat =>
        obtain ⟨before, hbefore, rfl⟩ := Option.map_eq_some_iff.mp hafter
        exact hconforms.heartbeat before hbefore
    | _ => exact hconforms.heartbeat heartbeat hafter
  cases h with
  | answered next hprogram =>
      rw [hprogram] at hwp
      exact ⟨hwp.2 (.ok _), hconforms.sound.done hallowed _, hheartbeat⟩
  | raised failure next hprogram =>
      rw [hprogram] at hwp
      exact ⟨hwp.2 (.error failure), hconforms.sound.fault hallowed, hheartbeat⟩

end

theorem Heartbeat.next_own (heartbeat : Heartbeat) (answer : Except Fault Bool) :
    (heartbeat.next answer).turnId = heartbeat.turnId ∧
      (heartbeat.next answer).holder = heartbeat.holder := by
  unfold Heartbeat.next
  split <;> exact ⟨rfl, rfl⟩

/-- An execution that has ended has a record as the rules say. -/
theorem Execution.Conforms.ended {execution : Execution} (h : execution.Conforms)
    (hended : execution.program.ended = true) : ExecEnded execution.history := by
  have hwp := h.program
  unfold Thread.ended at hended
  cases hprogram : execution.program with
  | ret value =>
      rw [hprogram] at hwp
      exact hwp
  | call op next => simp [hprogram, Thread.op] at hended
  | emit out rest => exact nomatch out

theorem Control.Conforms.ended {control : Control} (h : control.Conforms)
    (hended : control.program.ended = true) : ControlEnded control.kind control.history := by
  unfold Control.Conforms at h
  unfold Thread.ended at hended
  cases hprogram : control.program with
  | ret value =>
      rw [hprogram] at h
      exact h
  | call op next => simp [hprogram, Thread.op] at hended
  | emit out rest => exact nomatch out

theorem Execution.start_conforms (cfg : ExecConfig) : (Execution.start cfg).Conforms where
  program := executeTurn_conforms cfg
  sound := ⟨nofun, nofun, nofun, nofun⟩
  heartbeat := nofun

/-- **Every thread of a run keeps to its rules.** -/
theorem Cluster.Conforms.step {cluster next : Cluster} {action : ClusterAction}
    (h : cluster.Conforms) (hsteps : cluster.Steps action next) : next.Conforms := by
  cases hsteps with
  | tick | redeliver | miss => exact ⟨h.executions, h.controls⟩
  | deliver cfg again =>
      refine ⟨fun execution hmem => ?_, h.controls⟩
      rcases List.mem_append.mp hmem with hold | hnew
      · exact h.executions execution hold
      · rw [List.mem_singleton.mp hnew]
        exact Execution.start_conforms cfg
  | advance id raised hexecution hawaits =>
      refine ⟨fun execution hmem => ?_, h.controls⟩
      rcases List.mem_or_eq_of_mem_set hmem with hold | rfl
      · exact h.executions execution hold
      · exact hawaits.conforms (h.executions _ (List.mem_of_getElem? hexecution))
  | @beat id raised execution heartbeat hexecution hheartbeat =>
      refine ⟨fun other hmem => ?_, h.controls⟩
      rcases List.mem_or_eq_of_mem_set hmem with hold | rfl
      · exact h.executions other hold
      · have hconforms := h.executions _ (List.mem_of_getElem? hexecution)
        have hown := hconforms.heartbeat heartbeat hheartbeat
        refine ⟨hconforms.program, hconforms.sound, fun beaten hbeaten => ?_⟩
        cases hbeaten
        have hnext := heartbeat.next_own (heartbeat.await cluster.world id raised).1
        exact ⟨hnext.1.trans hown.1, hnext.2.trans hown.2⟩
  | spawn kind | notice =>
      refine ⟨h.executions, fun control hmem => ?_⟩
      rcases List.mem_append.mp hmem with hold | hnew
      · exact h.controls control hold
      · rw [List.mem_singleton.mp hnew]
        exact control_conforms _
  | control id raised hcontrol hawaits =>
      refine ⟨h.executions, fun control hmem => ?_⟩
      rcases List.mem_or_eq_of_mem_set hmem with hold | rfl
      · exact h.controls control hold
      · exact hawaits.conforms (h.controls _ (List.mem_of_getElem? hcontrol))
  | crash holder =>
      constructor
      · intro execution hmem
        obtain ⟨before, hbefore, rfl⟩ := List.mem_map.mp hmem
        have hconforms := h.executions before hbefore
        split
        · exact ⟨hconforms.program, hconforms.sound, hconforms.heartbeat⟩
        · exact hconforms
      · intro control hmem
        obtain ⟨before, hbefore, rfl⟩ := List.mem_map.mp hmem
        have hconforms := h.controls before hbefore
        split
        · exact hconforms
        · exact hconforms
  | @quit id control hcontrol =>
      refine ⟨h.executions, fun other hmem => ?_⟩
      rcases List.mem_or_eq_of_mem_set hmem with hold | rfl
      · exact h.controls other hold
      · exact h.controls control (List.mem_of_getElem? hcontrol)

theorem reach_conforms {Allowed : Cluster → ClusterAction → Prop} {users : Nat → Bool}
    {cluster : Cluster} (hreach : Reach Cluster.step Allowed (Cluster.init users) cluster) :
    cluster.Conforms := by
  refine hreach.invariant Cluster.Conforms ?_ fun _ _ _ h _ hstep =>
    h.step (Cluster.steps_of_step hstep)
  exact ⟨fun _ hmem => absurd hmem List.not_mem_nil, fun _ hmem => absurd hmem List.not_mem_nil⟩

end CodexServer
