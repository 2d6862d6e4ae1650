import CodexServer.Proof.RowRuns

/-!
# The one execution of a turn

While a turn is delivered once, its row, its stream, its messages and its journal entries are written
by its one execution, by the heartbeat of that execution, and by those who finalise the turn from
outside. `Sole` is the rule for what is known about the shared state and the record of the execution.
-/

open Transition

namespace CodexServer

/-- The turn an operation writes about. -/
def Op.about : Op → Option Nat
  | .markRunning turnId _ _ | .updateLastEvent turnId _ | .heartbeat turnId
  | .finalizeOnce turnId _ _ _ | .persistPartial turnId _ _ | .persistFinal turnId _ _
  | .emitEvent turnId _ _ | .xadd turnId _ => some turnId
  | _ => none

def Op.isFinalize : Op → Bool
  | .finalizeOnce .. => true
  | _ => false

/-- The await of a handler or of recovery. -/
def ClusterAction.isControl : ClusterAction → Bool
  | .control .. => true
  | .tick | .deliver .. | .redeliver _ | .advance .. | .beat .. | .spawn _ | .crash _ | .quit _
  | .miss .. => false

/-- What the shared state becomes when the execution of the turn has no part in a step. -/
inductive Cluster.Others (cluster : Cluster) (turnId : Nat) : ClusterAction → World → Prop
  | tick : Others cluster turnId .tick cluster.world.tick
  | performed {action : ClusterAction} (self : Nat) (lost : Bool) (op : Op)
      (hop : cluster.op action = some op) (hraised : action.raised = none)
      (hforeign : op.about = some turnId →
        op = .heartbeat turnId ∨ (action.isControl = true ∧ op.isFinalize = true))
      (hapart : ∀ id raised execution, action = .advance id raised →
        cluster.executions[id]? = some execution → execution.turnId ≠ turnId) :
      Others cluster turnId action (cluster.world.perform self lost op).2
  | bookkeeping (action : ClusterAction) (queue : Nat → Bool) (notices activeLeases : Nat → List Nat) :
      Others cluster turnId action { cluster.world with
        queue := queue, notices := notices, activeLeases := activeLeases }

section

variable {cluster next : Cluster} {action : ClusterAction} {turnId : Nat} {op : Op}

/-- An execution writes about its own turn. -/
theorem ExecAllowed.about {cfg : ExecConfig} {history : ExecHistory}
    (h : ExecAllowed cfg history op) (habout : op.about = some turnId) : turnId = cfg.turnId := by
  cases op with
  | markRunning => exact Option.some.inj habout ▸ h.1
  | updateLastEvent => exact Option.some.inj habout ▸ h
  | heartbeat => exact h.elim
  | finalizeOnce | persistPartial | persistFinal | emitEvent | xadd =>
      exact Option.some.inj habout ▸ h.1
  | _ => cases habout

/-- Handlers and recovery write about a turn when they finalise it. -/
theorem ControlAllowed.isFinalize {kind : ControlKind} {history : ControlHistory}
    (h : ControlAllowed kind history op) (habout : op.about = some turnId) :
    op.isFinalize = true := by
  cases op with
  | finalizeOnce => rfl
  | markRunning | updateLastEvent | heartbeat | persistPartial | persistFinal | emitEvent | xadd =>
      exact h.elim
  | _ => cases habout

/-- **A step in which the execution of the turn has no part.** -/
theorem Cluster.Steps.others (hsteps : cluster.Steps action next) (hconforms : cluster.Conforms)
    (hother : ∀ id raised execution, action = .advance id raised →
      cluster.executions[id]? = some execution → execution.turnId ≠ turnId) :
    cluster.Others turnId action next.world := by
  generalize hworld : next.world = world
  have hshared := hsteps.shared
  rw [hworld] at hshared
  cases hshared with
  | tick => exact .tick
  | bookkeeping => exact .bookkeeping _ _ _ _
  | performed self lost op hop hraised =>
      refine .performed self lost op hop hraised (fun habout => ?_) hother
      cases hconforms.actor hop with
      | execution id raised hexecution hallowed =>
          exact absurd (hallowed.about habout).symm (hother id raised _ rfl hexecution)
      | heartbeat id raised hexecution hheartbeat hbeat =>
          unfold Heartbeat.op at hbeat
          split at hbeat <;> cases hbeat
          · cases habout
            exact .inl rfl
          · cases habout
          · cases habout
      | control id raised hcontrol hallowed => exact .inr ⟨rfl, hallowed.isFinalize habout⟩

/-- The turn has at most one execution. `fresh` holds of the shared state before it has one, and `own`
of the shared state and the record of the execution. -/
structure Cluster.Sole (turnId : Nat) (fresh : World → Prop)
    (own : World → ExecConfig → ExecHistory → Prop) (cluster : Cluster) : Prop where
  unique : ∀ (id other : Nat) execution later, cluster.executions[id]? = some execution →
    cluster.executions[other]? = some later → execution.turnId = turnId →
    later.turnId = turnId → id = other
  fresh : (∀ execution ∈ cluster.executions, execution.turnId ≠ turnId) → fresh cluster.world
  own : ∀ (id : Nat) execution, cluster.executions[id]? = some execution →
    execution.turnId = turnId → own cluster.world execution.cfg execution.history

/-- The turn is not executed yet. -/
def Cluster.undelivered (cluster : Cluster) (turnId : Nat) : Bool :=
  cluster.executions.all fun execution => execution.turnId ≠ turnId

theorem Cluster.undelivered_iff :
    cluster.undelivered turnId = true ↔
      ∀ execution ∈ cluster.executions, execution.turnId ≠ turnId := by
  simp [Cluster.undelivered]

variable {fresh : World → Prop} {own : World → ExecConfig → ExecHistory → Prop}

/-- **The rule for the one execution of a turn.** -/
theorem Cluster.Sole.step (h : cluster.Sole turnId fresh own) (hconforms : cluster.Conforms)
    (hsteps : cluster.Steps action next)
    (hdeliver : ∀ cfg again, action = .deliver cfg again → cfg.turnId = turnId →
      cluster.undelivered turnId = true)
    (hstart : ∀ cfg, cluster.world.queue turnId = true → cfg.turnId = turnId →
      fresh cluster.world → own cluster.world cfg {})
    (hother : ∀ world, cluster.Others turnId action world →
      (fresh cluster.world → fresh world) ∧
      ∀ cfg history, own cluster.world cfg history → own world cfg history)
    (hown : ∀ id execution after op raised, action = .advance id raised →
      cluster.executions[id]? = some execution → execution.turnId = turnId →
      execution.Awaits id cluster.world op raised after next.world →
      own cluster.world execution.cfg execution.history →
      own next.world after.cfg after.history) : next.Sole turnId fresh own := by
  have hafter : ∀ (id : Nat) after, next.executions[id]? = some after → after.turnId = turnId →
      (∃ execution, cluster.executions[id]? = some execution ∧ execution.turnId = turnId) ∨
        (id = cluster.executions.length ∧ cluster.undelivered turnId = true) := by
    intro id after hafter hturn
    cases hsteps.continues hafter with
    | started cfg again haction hqueue hid hstarted =>
        subst hstarted
        exact .inr ⟨hid, hdeliver cfg again haction hturn⟩
    | advanced execution op raised haction hexecution hawaits =>
        exact .inl ⟨execution, hexecution,
          (congrArg ExecConfig.turnId hawaits.cfg_eq).symm.trans hturn⟩
    | kept execution haction hexecution hcfg =>
        exact .inl ⟨execution, hexecution, (congrArg ExecConfig.turnId hcfg).symm.trans hturn⟩
  constructor
  · intro id other execution later hexecution hlater hturn hturn'
    rcases hafter id execution hexecution hturn with ⟨before, hbefore, hown⟩ | ⟨hid, hnone⟩ <;>
      rcases hafter other later hlater hturn' with ⟨before', hbefore', hown'⟩ | ⟨hid', hnone'⟩
    · exact h.unique id other before before' hbefore hbefore' hown hown'
    · exact absurd hown (Cluster.undelivered_iff.mp hnone' before (List.mem_of_getElem? hbefore))
    · exact absurd hown' (Cluster.undelivered_iff.mp hnone before' (List.mem_of_getElem? hbefore'))
    · exact hid.trans hid'.symm
  · intro hnone
    have hbefore : ∀ execution ∈ cluster.executions, execution.turnId ≠ turnId := by
      intro execution hmem hturn
      obtain ⟨id, hexecution⟩ := List.mem_iff_getElem?.mp hmem
      obtain ⟨after, hafter, hcfg⟩ := hsteps.cfg_kept hexecution
      exact hnone after (List.mem_of_getElem? hafter)
        ((congrArg ExecConfig.turnId hcfg).trans hturn)
    have hothers := hsteps.others hconforms fun id raised execution _ hexecution =>
      hbefore execution (List.mem_of_getElem? hexecution)
    exact (hother next.world hothers).1 (h.fresh hbefore)
  · intro id after hcurrent hturn
    cases hsteps.continues hcurrent with
    | started cfg again haction hqueue hid hstarted =>
        subst hstarted
        have hnone := Cluster.undelivered_iff.mp (hdeliver cfg again haction hturn)
        have hqueued : cluster.world.queue turnId = true := hturn ▸ hqueue
        have hothers := hsteps.others hconforms fun id raised execution _ hexecution =>
          hnone execution (List.mem_of_getElem? hexecution)
        exact (hother next.world hothers).2 cfg {} (hstart cfg hqueued hturn (h.fresh hnone))
    | advanced execution op raised haction hexecution hawaits =>
        have hbefore : execution.turnId = turnId :=
          (congrArg ExecConfig.turnId hawaits.cfg_eq).symm.trans hturn
        exact hown id execution after op raised haction hexecution hbefore hawaits
          (h.own id execution hexecution hbefore)
    | kept execution haction hexecution hcfg hprogram hhistory =>
        have hbefore : execution.turnId = turnId :=
          (congrArg ExecConfig.turnId hcfg).symm.trans hturn
        have hothers := hsteps.others hconforms fun other raised later hadvance hlater hsame =>
          haction raised (h.unique other id later execution hlater hexecution hsame hbefore ▸ hadvance)
        rw [hcfg, hhistory]
        exact (hother next.world hothers).2 _ _ (h.own id execution hexecution hbefore)

end

/-! ### The record after an answer -/

namespace ExecHistory

variable {history : ExecHistory} {turnId : Nat} {op : Op} {answer : op.Val}

theorem done_late : (history.done turnId op answer).late = history.late := by
  cases op with
  | external call =>
      cases call with
      | startTurn reply => cases reply <;> rfl
      | _ => rfl
  | nextNote note => cases note <;> rfl
  | _ => rfl

theorem done_appended (hop : ∀ target event, op ≠ .xadd target event) :
    (history.done turnId op answer).appended = history.appended := by
  cases op with
  | xadd target event => exact absurd rfl (hop target event)
  | external call =>
      cases call with
      | startTurn reply => cases reply <;> rfl
      | _ => rfl
  | nextNote note => cases note <;> rfl
  | _ => rfl

theorem done_requested (hop : op.isFinalize = false) :
    (history.done turnId op answer).requested = history.requested := by
  cases op with
  | finalizeOnce => cases hop
  | external call =>
      cases call with
      | startTurn reply => cases reply <;> rfl
      | _ => rfl
  | nextNote note => cases note <;> rfl
  | _ => rfl

end ExecHistory
end CodexServer
