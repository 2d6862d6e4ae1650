import CodexServer.Proof.Rows
import CodexServer.Proof.Threads

/-!
# Runs of the cluster

A step changes the shared state by one operation, and the record of one thread. What is known about
the state and the records along a run is proved by the rules at the end of this file, which leave to
a property what one operation does to it.
-/

open Transition

namespace CodexServer

/-! ### Who does what -/

/-- What is raised in a step instead of an answer. -/
def ClusterAction.raised : ClusterAction → Option Fault
  | advance _ raised | beat _ raised | control _ raised => raised
  | tick | deliver .. | redeliver _ | spawn _ | crash _ | quit _ | miss .. => none

/-- The thread that awaits the operation of a step. -/
inductive Cluster.Actor (cluster : Cluster) (op : Op) : ClusterAction → Prop
  | execution (id : Nat) (raised : Option Fault) {execution : Execution}
      (hexecution : cluster.executions[id]? = some execution)
      (hallowed : ExecAllowed execution.cfg execution.history op) :
      Actor cluster op (.advance id raised)
  | heartbeat (id : Nat) (raised : Option Fault) {execution : Execution} {heartbeat : Heartbeat}
      (hexecution : cluster.executions[id]? = some execution)
      (hheartbeat : execution.heartbeat = some heartbeat) (hop : heartbeat.op = some op)
      (hturn : heartbeat.turnId = execution.turnId)
      (hholder : heartbeat.holder = execution.cfg.holder) : Actor cluster op (.beat id raised)
  | control (id : Nat) (raised : Option Fault) {control : Control}
      (hcontrol : cluster.controls[id]? = some control)
      (hallowed : ControlAllowed control.kind control.history op) :
      Actor cluster op (.control id raised)

section

variable {cluster next : Cluster} {action : ClusterAction} {op : Op} {id : Nat}

theorem Thread.op_eq_some {thread : Thread} (h : thread.op = some op) :
    ∃ next, thread = .call op next := by
  cases thread with
  | call other next =>
      cases h
      exact ⟨next, rfl⟩
  | ret value => cases h
  | emit out next => exact nomatch out

theorem Execution.Conforms.allowed {execution : Execution} (h : execution.Conforms)
    (hop : execution.program.op = some op) : ExecAllowed execution.cfg execution.history op := by
  obtain ⟨next, hprogram⟩ := Thread.op_eq_some hop
  have hwp := h.program
  rw [hprogram] at hwp
  exact hwp.1

theorem Control.Conforms.allowed {control : Control} (h : control.Conforms)
    (hop : control.program.op = some op) : ControlAllowed control.kind control.history op := by
  obtain ⟨next, hprogram⟩ := Thread.op_eq_some hop
  unfold Control.Conforms at h
  rw [hprogram] at h
  exact h.1

/-- **Every operation is one that its thread is allowed.** -/
theorem Cluster.Conforms.actor (h : cluster.Conforms) (hop : cluster.op action = some op) :
    cluster.Actor op action := by
  cases action with
  | advance id raised =>
      obtain ⟨execution, hexecution, hop⟩ := Option.bind_eq_some_iff.mp hop
      exact .execution id raised hexecution
        ((h.executions execution (List.mem_of_getElem? hexecution)).allowed hop)
  | beat id raised =>
      obtain ⟨execution, hexecution, hop⟩ := Option.bind_eq_some_iff.mp hop
      obtain ⟨heartbeat, hheartbeat, hop⟩ := Option.bind_eq_some_iff.mp hop
      have hown := (h.executions execution (List.mem_of_getElem? hexecution)).heartbeat
        heartbeat hheartbeat
      exact .heartbeat id raised hexecution hheartbeat hop hown.1 hown.2
  | control id raised =>
      obtain ⟨control, hcontrol, hop⟩ := Option.bind_eq_some_iff.mp hop
      exact .control id raised hcontrol
        ((h.controls control (List.mem_of_getElem? hcontrol)).allowed hop)
  | tick | deliver | redeliver | spawn | crash | quit | miss => cases hop

/-! ### The shared state after a step -/

/-- What a step makes of the shared state. -/
inductive Cluster.Shared (cluster : Cluster) : ClusterAction → World → Prop
  | tick : Shared cluster .tick cluster.world.tick
  | performed {action : ClusterAction} (self : Nat) (lost : Bool) (op : Op)
      (hop : cluster.op action = some op) (hraised : action.raised = none)
      (hself : ∀ id raised, action = .advance id raised → self = id) :
      Shared cluster action (cluster.world.perform self lost op).2
  | bookkeeping (action : ClusterAction) (queue : Nat → Bool) (notices activeLeases : Nat → List Nat) :
      Shared cluster action { cluster.world with
        queue := queue, notices := notices, activeLeases := activeLeases }

/-- A step that leaves the shared state as it is. -/
theorem Cluster.Shared.kept : cluster.Shared action cluster.world :=
  .bookkeeping action cluster.world.queue cluster.world.notices cluster.world.activeLeases

/-- What an await of the heartbeat task leaves behind. -/
theorem Heartbeat.await_world (heartbeat : Heartbeat) (world : World) (self : Nat)
    (raised : Option Fault) : (heartbeat.await world self raised).2 = world ∨
      ∃ op, heartbeat.op = some op ∧ raised = none ∧
        (heartbeat.await world self raised).2 = (world.perform self false op).2 := by
  unfold Heartbeat.await Heartbeat.op
  cases raised with
  | some failure =>
      left
      split <;> rfl
  | none =>
      cases heartbeat.point with
      | sleeping | stopped => exact .inl rfl
      | row | lock | lease => exact .inr ⟨_, rfl, rfl, rfl⟩

theorem Cluster.Steps.shared (h : cluster.Steps action next) :
    cluster.Shared action next.world := by
  cases h with
  | tick => exact .tick
  | deliver cfg again => exact .bookkeeping _ _ cluster.world.notices cluster.world.activeLeases
  | redeliver turnId => exact .bookkeeping _ _ cluster.world.notices cluster.world.activeLeases
  | @advance id raised execution after op world hexecution hawaits =>
      cases hawaits with
      | answered next hprogram hrunning =>
          refine .performed id execution.ownershipLost op ?_ rfl fun other _ h => ?_
          · simp [Cluster.op, hexecution, hprogram, Thread.op]
          · cases h
            rfl
      | raised failure next hprogram hrunning hlocal => exact .kept
  | @beat id raised execution heartbeat hexecution hheartbeat hrunning hpoint hraised =>
      rcases heartbeat.await_world cluster.world id raised with hkept | ⟨op, hop, hnone, hworld⟩
      · simp only [hkept]
        exact .kept
      · simp only [hworld]
        refine .performed id false op ?_ hnone fun _ _ h => ?_
        · simp [Cluster.op, hexecution, hheartbeat, hop]
        · cases h
  | spawn kind hkind => exact .kept
  | notice turnId acquisition hnotice =>
      exact .bookkeeping _ cluster.world.queue _ cluster.world.activeLeases
  | @control id raised control after op world hcontrol hawaits =>
      cases hawaits with
      | answered next hprogram hrunning =>
          refine .performed id false op ?_ rfl fun _ _ h => ?_
          · simp [Cluster.op, hcontrol, hprogram, Thread.op]
          · cases h
      | raised failure next hprogram hrunning hlocal => exact .kept
  | crash holder => exact .bookkeeping _ _ cluster.world.notices _
  | quit => exact .kept
  | miss => exact .bookkeeping _ cluster.world.queue _ cluster.world.activeLeases

/-! ### The records after a step -/

/-- Where an execution comes from in a step. -/
inductive Cluster.Continues (cluster : Cluster) (action : ClusterAction) (world : World) (id : Nat)
    (after : Execution) : Prop
  | started (cfg : ExecConfig) (again : Bool) (haction : action = .deliver cfg again)
      (hqueue : cluster.world.queue cfg.turnId = true) (hid : id = cluster.executions.length)
      (hafter : after = Execution.start cfg)
  | advanced (execution : Execution) (op : Op) (raised : Option Fault)
      (haction : action = .advance id raised) (hexecution : cluster.executions[id]? = some execution)
      (hawaits : execution.Awaits id cluster.world op raised after world)
  | kept (execution : Execution) (haction : ∀ raised, action ≠ .advance id raised)
      (hexecution : cluster.executions[id]? = some execution) (hcfg : after.cfg = execution.cfg)
      (hprogram : after.program = execution.program) (hhistory : after.history = execution.history)
      (hrunning : after.running = true → execution.running = true)

theorem getElem?_append_singleton {α : Type} {items : List α} {item found : α}
    (h : (items ++ [item])[id]? = some found) :
    items[id]? = some found ∨ (id = items.length ∧ found = item) := by
  by_cases hid : id < items.length
  · exact .inl (by rwa [List.getElem?_append_left hid] at h)
  · rw [List.getElem?_append_right (by omega), List.getElem?_singleton] at h
    obtain ⟨hzero, hfound⟩ := Option.ite_none_right_eq_some.mp h
    exact .inr ⟨by omega, (Option.some.inj hfound).symm⟩

theorem getElem?_set_self_eq {α : Type} {items : List α} {before item found : α}
    (hbefore : items[id]? = some before) (h : (items.set id item)[id]? = some found) :
    found = item := by
  obtain ⟨hid, _⟩ := List.getElem?_eq_some_iff.mp hbefore
  rw [List.getElem?_set_self hid] at h
  exact (Option.some.inj h).symm

theorem Cluster.Steps.continues (h : cluster.Steps action next) {after : Execution}
    (hafter : next.executions[id]? = some after) :
    cluster.Continues action next.world id after := by
  cases h with
  | tick | redeliver | spawn | notice | control | quit | miss =>
      exact .kept after nofun hafter rfl rfl rfl fun hrunning => hrunning
  | deliver cfg again hqueue =>
      rcases getElem?_append_singleton hafter with hold | ⟨hid, hnew⟩
      · exact .kept after nofun hold rfl rfl rfl fun hrunning => hrunning
      · exact .started cfg again rfl hqueue hid hnew
  | @advance target raised execution advanced op world hexecution hawaits =>
      by_cases hid : target = id
      · subst hid
        cases getElem?_set_self_eq hexecution hafter
        exact .advanced execution op raised rfl hexecution hawaits
      · rw [List.getElem?_set_ne hid] at hafter
        refine .kept after (fun _ haction => ?_) hafter rfl rfl rfl fun hrunning => hrunning
        cases haction
        exact hid rfl
  | @beat target raised execution heartbeat hexecution hheartbeat hrunning =>
      by_cases hid : target = id
      · subst hid
        cases getElem?_set_self_eq hexecution hafter
        exact .kept execution nofun hexecution rfl rfl rfl fun _ => hrunning
      · rw [List.getElem?_set_ne hid] at hafter
        exact .kept after nofun hafter rfl rfl rfl fun hrunning => hrunning
  | crash holder =>
      simp only [Cluster.crash, List.getElem?_map, Option.map_eq_some_iff] at hafter
      obtain ⟨execution, hexecution, rfl⟩ := hafter
      split
      · exact .kept execution nofun hexecution rfl rfl rfl nofun
      · exact .kept execution nofun hexecution rfl rfl rfl fun hrunning => hrunning

/-- An execution stays where it is. -/
theorem Cluster.Steps.cfg_kept (h : cluster.Steps action next) {execution : Execution}
    (hexecution : cluster.executions[id]? = some execution) :
    ∃ after, next.executions[id]? = some after ∧ after.cfg = execution.cfg := by
  have hlength : cluster.executions.length ≤ next.executions.length := by
    cases h with
    | deliver => simp
    | advance | beat => simp
    | crash => simp [Cluster.crash]
    | tick | redeliver | spawn | notice | control | quit | miss => exact le_rfl
  obtain ⟨hid, _⟩ := List.getElem?_eq_some_iff.mp hexecution
  have hafter : next.executions[id]? = some next.executions[id] := List.getElem?_eq_getElem _
  refine ⟨_, hafter, ?_⟩
  cases h.continues hafter with
  | started cfg again haction hqueue hlast => omega
  | advanced before op raised haction hbefore hawaits =>
      obtain rfl := Option.some.inj (hexecution.symm.trans hbefore)
      exact hawaits.cfg_eq
  | kept before haction hbefore hcfg =>
      obtain rfl := Option.some.inj (hexecution.symm.trans hbefore)
      exact hcfg

/-- The record of every execution has the property, at the index it runs under. -/
def Cluster.Records (own : World → Nat → ExecConfig → ExecHistory → Prop) (cluster : Cluster) :
    Prop :=
  ∀ (id : Nat) execution, cluster.executions[id]? = some execution →
    own cluster.world id execution.cfg execution.history

/-- **The rule for the records of the executions.** -/
theorem Cluster.Records.step {own : World → Nat → ExecConfig → ExecHistory → Prop}
    (h : cluster.Records own) (hsteps : cluster.Steps action next)
    (hstart : ∀ cfg, cluster.world.queue cfg.turnId = true →
      own next.world cluster.executions.length cfg {})
    (hkept : ∀ (id : Nat) execution, cluster.executions[id]? = some execution →
      (∀ raised, action ≠ .advance id raised) →
      own cluster.world id execution.cfg execution.history →
      own next.world id execution.cfg execution.history)
    (hadvance : ∀ (id : Nat) execution after op raised, action = .advance id raised →
      cluster.executions[id]? = some execution →
      execution.Awaits id cluster.world op raised after next.world →
      own cluster.world id execution.cfg execution.history →
      own next.world id after.cfg after.history) : next.Records own := by
  intro id after hafter
  cases hsteps.continues hafter with
  | started cfg again haction hqueue hid hstarted =>
      subst hid hstarted
      exact hstart cfg hqueue
  | advanced execution op raised haction hexecution hawaits =>
      exact hadvance id execution after op raised haction hexecution hawaits
        (h id execution hexecution)
  | kept execution haction hexecution hcfg hprogram hhistory hrunning =>
      rw [hcfg, hhistory]
      exact hkept id execution hexecution haction (h id execution hexecution)

/-- Where a handler or a recovery comes from in a step. -/
inductive Cluster.Controls (cluster : Cluster) (action : ClusterAction) (world : World) (id : Nat)
    (after : Control) : Prop
  | started (kind : ControlKind) (haction : action = .spawn kind)
      (hnotice : ∀ turnId acquisition, kind = .listener turnId acquisition →
        acquisition ∈ cluster.world.notices turnId)
      (hid : id = cluster.controls.length) (hafter : after = Control.start kind)
  | advanced (control : Control) (op : Op) (raised : Option Fault)
      (haction : action = .control id raised) (hcontrol : cluster.controls[id]? = some control)
      (hawaits : control.Awaits id cluster.world op raised after world)
  | kept (control : Control) (haction : ∀ raised, action ≠ .control id raised)
      (hcontrol : cluster.controls[id]? = some control) (hkind : after.kind = control.kind)
      (hprogram : after.program = control.program) (hhistory : after.history = control.history)
      (hrunning : after.running = true → control.running = true)

theorem Cluster.Steps.controls (h : cluster.Steps action next) {after : Control}
    (hafter : next.controls[id]? = some after) : cluster.Controls action next.world id after := by
  cases h with
  | tick | deliver | redeliver | advance | beat | miss =>
      exact .kept after nofun hafter rfl rfl rfl fun hrunning => hrunning
  | spawn kind hkind =>
      rcases getElem?_append_singleton hafter with hold | ⟨hid, hnew⟩
      · exact .kept after nofun hold rfl rfl rfl fun hrunning => hrunning
      · exact .started kind rfl (fun turnId acquisition h => absurd h (hkind turnId acquisition))
          hid hnew
  | notice turnId acquisition hnotice =>
      rcases getElem?_append_singleton hafter with hold | ⟨hid, hnew⟩
      · exact .kept after nofun hold rfl rfl rfl fun hrunning => hrunning
      · refine .started _ rfl (fun _ _ h => ?_) hid hnew
        cases h
        exact hnotice
  | @control target raised control advanced op world hcontrol hawaits =>
      by_cases hid : target = id
      · subst hid
        cases getElem?_set_self_eq hcontrol hafter
        exact .advanced control op raised rfl hcontrol hawaits
      · rw [List.getElem?_set_ne hid] at hafter
        refine .kept after (fun _ haction => ?_) hafter rfl rfl rfl fun hrunning => hrunning
        cases haction
        exact hid rfl
  | crash holder =>
      simp only [Cluster.crash, List.getElem?_map, Option.map_eq_some_iff] at hafter
      obtain ⟨control, hcontrol, rfl⟩ := hafter
      split
      · exact .kept control nofun hcontrol rfl rfl rfl nofun
      · exact .kept control nofun hcontrol rfl rfl rfl fun hrunning => hrunning
  | @quit target control hcontrol =>
      by_cases hid : target = id
      · subst hid
        cases getElem?_set_self_eq hcontrol hafter
        exact .kept control nofun hcontrol rfl rfl rfl nofun
      · rw [List.getElem?_set_ne hid] at hafter
        exact .kept after nofun hafter rfl rfl rfl fun hrunning => hrunning

def Cluster.ControlRecords (own : World → Nat → ControlKind → ControlHistory → Prop)
    (cluster : Cluster) : Prop :=
  ∀ (id : Nat) control, cluster.controls[id]? = some control →
    own cluster.world id control.kind control.history

/-- **The rule for the records of the handlers and of recovery.** -/
theorem Cluster.ControlRecords.step {own : World → Nat → ControlKind → ControlHistory → Prop}
    (h : cluster.ControlRecords own) (hsteps : cluster.Steps action next)
    (hstart : ∀ kind, (∀ turnId acquisition, kind = .listener turnId acquisition →
      acquisition ∈ cluster.world.notices turnId) → action = .spawn kind →
      own next.world cluster.controls.length kind {})
    (hkept : ∀ (id : Nat) control, cluster.controls[id]? = some control →
      (∀ raised, action ≠ .control id raised) →
      own cluster.world id control.kind control.history →
      own next.world id control.kind control.history)
    (hadvance : ∀ (id : Nat) control after op raised, action = .control id raised →
      cluster.controls[id]? = some control →
      control.Awaits id cluster.world op raised after next.world →
      own cluster.world id control.kind control.history →
      own next.world id after.kind after.history) : next.ControlRecords own := by
  intro id after hafter
  cases hsteps.controls hafter with
  | started kind haction hnotice hid hstarted =>
      subst hid hstarted
      exact hstart kind hnotice haction
  | advanced control op raised haction hcontrol hawaits =>
      exact hadvance id control after op raised haction hcontrol hawaits (h id control hcontrol)
  | kept control haction hcontrol hkind hprogram hhistory hrunning =>
      rw [hkind, hhistory]
      exact hkept id control hcontrol haction (h id control hcontrol)

end
end CodexServer
