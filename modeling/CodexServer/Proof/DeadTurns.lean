import CodexServer.Proof.TerminalFrame
import CodexServer.Proof.Tokens

/-!
# Recovery and live turns

The listener acts on a message about a lease, the other paths of recovery on a heartbeat they have
seen, and `finalize_once` asks for neither again. A path of recovery ends a dead turn as long as what
it has been told is still so: the lease is not taken again, and no heartbeat committed, before it has
decided; and as long as who holds a lease is not so late with a heartbeat that it looks dead.
-/

open Async Transition

namespace CodexServer

/-! ### What recovery knows -/

/-- The row is terminal. -/
def World.decided (world : World) (turnId : Nat) : Bool :=
  (world.turns turnId).any fun row => row.status.isTerminal

/-- The committed heartbeat is too old. -/
def World.overdue (world : World) (turnId : Nat) : Bool :=
  (world.turns turnId).any fun row =>
    decide (row.heartbeatAt + Recovery.staleThreshold ≤ world.now)

/-- The listener has a message about the lease of the turn in hand. -/
def Control.hears (turnId : Nat) (control : Control) : Bool :=
  control.live &&
    match control.kind with
    | .listener target _ => target = turnId
    | _ => false

/-- A path of recovery has read the row of the turn and not compared it with the clock. -/
def Control.weighs (turnId : Nat) (control : Control) : Bool :=
  control.live && !control.history.weighed &&
    (control.history.examined.any fun row => row.id = turnId) &&
    match control.kind with
    | .listener .. => false
    | _ => true

/-- A path of recovery has seen a heartbeat of the turn that was too old. -/
def Control.suspects (turnId : Nat) (control : Control) : Bool :=
  control.live && control.history.stale.any fun row => row.id = turnId

/-- The operation tells the path of recovery how old the heartbeat of the turn is. -/
def Control.judges (turnId : Nat) (control : Control) : Op → Bool
  | .findStaleActive _ => true
  | .clock => control.weighs turnId
  | _ => false

namespace Cluster

variable (turnId : Nat) (cluster : Cluster)

/-- A live execution holds the lease. -/
def held : Bool :=
  (cluster.world.lease turnId).any fun entry =>
    (cluster.executions[entry.owner]?).any Execution.live

/-- A message about an expired lease of the turn is under way or in hand. -/
def announced : Bool :=
  !(cluster.world.notices turnId).isEmpty || cluster.controls.any (Control.hears turnId)

def weighed : Bool := cluster.controls.any (Control.weighs turnId)

def suspected : Bool := cluster.controls.any (Control.suspects turnId)

/-- A live execution that holds the lease has not committed a heartbeat for too long. -/
def late : Bool := cluster.held turnId && cluster.world.overdue turnId

end Cluster

/-- An operation that commits a heartbeat of the turn. -/
def Op.beats (turnId : Nat) : Op → Bool
  | .heartbeat target | .markRunning target .. => target = turnId
  | _ => false

/-- An operation that takes the lease of the turn. -/
def Op.takesLease (turnId : Nat) : Op → Bool
  | .setLeaseNx target _ => target = turnId
  | _ => false

/-- Nothing overtakes recovery: while it has the turn in hand, the lease is not taken; from its look
at the row on, no heartbeat is committed; and who holds the lease is not late when it looks. -/
def Cluster.current (turnId : Nat) (cluster : Cluster) (action : ClusterAction) : Bool :=
  cluster.world.decided turnId || action.raised.isSome ||
    (cluster.op action).all fun op =>
      (!op.takesLease turnId || !(cluster.announced turnId || cluster.suspected turnId)) &&
      (!op.beats turnId || !(cluster.weighed turnId || cluster.suspected turnId)) &&
      match action with
      | .control id _ => (cluster.controls[id]?).all fun control =>
          !control.judges turnId op || !cluster.late turnId
      | _ => true

section

variable {cluster next : Cluster} {action : ClusterAction} {turnId : Nat} {world : World} {self : Nat}
  {lost : Bool} {op : Op} {row : TurnRow}

/-! ### The row and the lease after a step -/

/-- Only two statements move the heartbeat. -/
theorem World.Timed.heartbeat_kept (h : world.Timed) (hrow : world.turns turnId = some row)
    (hop : op.beats turnId = false) : ∃ after, (world.perform self lost op).2.turns turnId =
      some after ∧ after.heartbeatAt = row.heartbeatAt := by
  have hstep : RowStep world op turnId (world.turns turnId)
      ((world.perform self lost op).2.turns turnId) := perform_row
  generalize (world.perform self lost op).2.turns turnId = later at hstep ⊢
  rw [hrow] at hstep
  generalize hbefore : some row = before at hstep
  cases hstep with
  | unchanged => exact ⟨row, hbefore.symm, rfl⟩
  | updated statement hstatement happly =>
      obtain rfl := Option.some.inj hbefore
      refine ⟨_, rfl, ?_⟩
      cases op with
      | markRunning | heartbeat =>
          cases hstatement
          simp [Op.beats] at hop
      | updateLastEvent | persistFinal =>
          cases hstatement
          cases happly
          rfl
      | finalizeOnce =>
          cases hstatement
          obtain ⟨_, hafter⟩ := Option.ite_none_right_eq_some.mp happly
          cases hafter
          rfl
      | _ => cases hstatement
  | created _ payload hcreate huser hturn =>
      have hid := h.id turnId row hrow
      omega

/-- A row that is terminal stays so. -/
theorem Cluster.Steps.decided (hsteps : cluster.Steps action next) (htimed : cluster.world.Timed)
    (h : cluster.world.decided turnId = true) : next.world.decided turnId = true := by
  obtain ⟨row, hrow, hterminal⟩ := (Option.any_eq_true ..).mp h
  obtain ⟨after, hafter, hleads⟩ := hsteps.row_leads htimed hrow
  refine (Option.any_eq_true ..).mpr ⟨after, hafter, ?_⟩
  rw [hleads.terminal hterminal]
  exact hterminal

/-- A heartbeat stays as it is when none is committed. -/
theorem Cluster.Steps.heartbeat_kept (hsteps : cluster.Steps action next)
    (htimed : cluster.world.Timed)
    (hquiet : ∀ op, cluster.op action = some op → action.raised = none → op.beats turnId = false)
    (hrow : cluster.world.turns turnId = some row) :
    ∃ after, next.world.turns turnId = some after ∧ after.heartbeatAt = row.heartbeatAt := by
  generalize hworld : next.world = world
  have hshared := hsteps.shared
  rw [hworld] at hshared
  cases hshared with
  | tick | bookkeeping => exact ⟨row, hrow, rfl⟩
  | performed self lost op hop hraised => exact htimed.heartbeat_kept hrow (hquiet op hop hraised)

theorem Cluster.Steps.now_le (hsteps : cluster.Steps action next) :
    cluster.world.now ≤ next.world.now := by
  generalize hworld : next.world = world
  have hshared := hsteps.shared
  rw [hworld] at hshared
  cases hshared with
  | tick => exact Nat.le_succ _
  | bookkeeping => exact le_rfl
  | performed self lost op => rw [(perform_effect cluster.world self lost op).now_eq]

/-- An old heartbeat stays old when none is committed. -/
theorem Cluster.Steps.overdue (hsteps : cluster.Steps action next) (htimed : cluster.world.Timed)
    (hquiet : ∀ op, cluster.op action = some op → action.raised = none → op.beats turnId = false)
    (h : cluster.world.overdue turnId = true) : next.world.overdue turnId = true := by
  obtain ⟨row, hrow, hold⟩ := (Option.any_eq_true ..).mp h
  obtain ⟨after, hafter, hkept⟩ := hsteps.heartbeat_kept htimed hquiet hrow
  refine (Option.any_eq_true ..).mpr ⟨after, hafter, decide_eq_true ?_⟩
  rw [hkept]
  exact (of_decide_eq_true hold).trans hsteps.now_le

/-- A lease that is there after a step was there before, with the same owner, or is taken in it. -/
theorem Cluster.Steps.lease_taken (hsteps : cluster.Steps action next)
    {entry : StoreEntry Nat Nat} (hentry : next.world.lease turnId = some entry) :
    (∃ before, cluster.world.lease turnId = some before ∧ before.owner = entry.owner) ∨
      ∃ op, cluster.op action = some op ∧ action.raised = none ∧ op.takesLease turnId = true ∧
        ∀ id raised, action = .advance id raised → entry.owner = id := by
  generalize hworld : next.world = world at hentry
  have hshared := hsteps.shared
  rw [hworld] at hshared
  cases hshared with
  | tick =>
      obtain ⟨hbefore, _⟩ := ExpiringStore.expire_eq_some.mp hentry
      exact .inl ⟨entry, hbefore, rfl⟩
  | bookkeeping => exact .inl ⟨entry, hentry, rfl⟩
  | performed self lost op hop hraised hself =>
      rcases (perform_effect cluster.world self lost op).lease with hkept | ⟨command, hcommand, hrun⟩
      · rw [hkept] at hentry
        exact .inl ⟨entry, hentry, rfl⟩
      · rw [hrun] at hentry
        rcases StoreCommand.run_eq_some _ _ _ _ hentry with
          ⟨before, hbefore, _, howner⟩ | ⟨rfl, howner⟩
        · exact .inl ⟨before, hbefore, howner⟩
        · obtain rfl := Op.leaseCommand_setNx hcommand
          exact .inr ⟨_, hop, hraised, decide_eq_true rfl,
            fun id raised haction => howner.trans (hself id raised haction)⟩

/-- An execution that is live after a step was there before, and live. -/
theorem Cluster.Steps.live_before (hsteps : cluster.Steps action next) {id : Nat}
    {writer : Execution} (hwriter : cluster.executions[id]? = some writer)
    (hlive : (next.executions[id]?).any Execution.live = true) : writer.live = true := by
  obtain ⟨after, hafter, hlive⟩ := (Option.any_eq_true ..).mp hlive
  cases hsteps.continues hafter with
  | started cfg again haction hqueue hid =>
      obtain ⟨hlt, _⟩ := List.getElem?_eq_some_iff.mp hwriter
      omega
  | advanced execution op raised haction hexecution hawaits =>
      obtain rfl := Option.some.inj (hwriter.symm.trans hexecution)
      obtain ⟨rest, hprogram⟩ := hawaits.program_eq
      simp [Execution.live, hawaits.running, Thread.ended, hprogram, Thread.op]
  | kept execution haction hexecution hcfg hprogram hhistory hrunning =>
      obtain rfl := Option.some.inj (hwriter.symm.trans hexecution)
      simp only [Execution.live, Bool.and_eq_true] at hlive ⊢
      exact ⟨hrunning hlive.1, hprogram ▸ hlive.2⟩

/-- A lease that nobody live holds is held by nobody live until it is taken. -/
theorem Cluster.Steps.unheld (hsteps : cluster.Steps action next) (htokens : cluster.Tokens)
    (hquiet : ∀ op, cluster.op action = some op → action.raised = none →
      op.takesLease turnId = false)
    (h : cluster.held turnId = false) : next.held turnId = false := by
  rw [Bool.eq_false_iff]
  intro hheld
  obtain ⟨entry, hentry, hlive⟩ := (Option.any_eq_true ..).mp hheld
  rcases hsteps.lease_taken hentry with ⟨before, hbefore, howner⟩ | ⟨op, hop, hraised, htakes, _⟩
  · obtain ⟨writer, hwriter, _⟩ := htokens.lease turnId before hbefore
    have hwas := hsteps.live_before hwriter (howner ▸ hlive)
    have hholds : cluster.held turnId = true :=
      (Option.any_eq_true ..).mpr ⟨before, hbefore, (Option.any_eq_true ..).mpr ⟨writer, hwriter, hwas⟩⟩
    simp [h] at hholds
  · simp [hquiet op hop hraised] at htakes

/-! ### What recovery knows after a step -/

/-- A control that is live after a step was there before, and live, or has just been started. -/
theorem Cluster.Steps.control_before (hsteps : cluster.Steps action next) {id : Nat}
    {after : Control} (hafter : next.controls[id]? = some after) (hlive : after.live = true) :
    (∃ kind, after = Control.start kind ∧ ∀ target acquisition, kind = .listener target acquisition →
        acquisition ∈ cluster.world.notices target) ∨
      ∃ control, cluster.controls[id]? = some control ∧ control.live = true ∧
        after.kind = control.kind ∧ (after.history = control.history ∨
          ∃ op raised, action = .control id raised ∧ control.program.op = some op ∧
            (raised = none → after.history =
              control.history.done op (cluster.world.perform id false op).1) ∧
            ∀ failure, raised = some failure → after.history = control.history.fault op failure) := by
  cases hsteps.controls hafter with
  | started kind haction hnotice hid hstarted => exact .inl ⟨kind, hstarted, hnotice⟩
  | advanced control op raised haction hcontrol hawaits =>
      have hop : control.program.op = some op := by
        obtain ⟨rest, hprogram⟩ := hawaits.program_eq
        rw [hprogram]
        rfl
      generalize next.world = world at hawaits
      have hwas : control.live = true := by
        have hrunning : control.running = true := by
          cases hawaits <;> assumption
        simp [Control.live, hrunning, Thread.ended, hop]
      refine .inr ⟨control, hcontrol, hwas, hawaits.kind_eq, .inr ⟨op, raised, haction, hop, ?_, ?_⟩⟩
      · rintro rfl
        cases hawaits
        rfl
      · rintro failure rfl
        cases hawaits
        rfl
  | kept control haction hcontrol hkind hprogram hhistory hrunning =>
      simp only [Control.live, Bool.and_eq_true] at hlive
      refine .inr ⟨control, hcontrol, ?_, hkind, .inl hhistory⟩
      simp only [Control.live, Bool.and_eq_true]
      exact ⟨hrunning hlive.1, hprogram ▸ hlive.2⟩

theorem World.perform_notices : (world.perform self lost op).2.notices = world.notices := by
  have heffect := perform_effect world self lost op
  generalize (world.perform self lost op).2 = after at heffect ⊢
  cases heffect <;> rfl

/-- A message that is under way after a step was so before, or the lease has expired in it. -/
theorem Cluster.Steps.notice_before (hsteps : cluster.Steps action next)
    (h : next.world.notices turnId ≠ []) : cluster.world.notices turnId ≠ [] ∨
      ((cluster.world.lease turnId).isSome = true ∧ next.world.lease turnId = none) := by
  cases hsteps with
  | tick =>
      by_cases hexpired : (cluster.world.lease turnId).any fun entry =>
          decide (entry.deadline ≤ cluster.world.now + 1)
      · obtain ⟨entry, hentry, hdeadline⟩ := (Option.any_eq_true ..).mp hexpired
        refine .inr ⟨Option.isSome_iff_exists.mpr ⟨entry, hentry⟩, ?_⟩
        refine Option.eq_none_iff_forall_ne_some.mpr fun held hheld => ?_
        obtain ⟨hbefore, hlater⟩ := ExpiringStore.expire_eq_some.mp hheld
        obtain rfl := Option.some.inj (hentry.symm.trans hbefore)
        exact absurd hlater (Nat.not_lt_of_le (of_decide_eq_true hdeadline))
      · left
        simpa [World.tick, hexpired] using h
  | deliver | redeliver | spawn | quit => exact .inl h
  | crash => exact .inl h
  | notice target acquisition hnotice | miss target acquisition hnotice =>
      left
      by_cases htarget : turnId = target
      · subst htarget
        exact List.ne_nil_of_mem hnotice
      · simpa [World.withoutNotice, Function.update_of_ne htarget] using h
  | advance id raised hexecution hawaits =>
      cases hawaits with
      | answered => exact .inl (World.perform_notices ▸ h)
      | raised => exact .inl h
  | @beat id raised execution heartbeat =>
      rcases heartbeat.await_world cluster.world id raised with hkept | ⟨op, _, _, hworld⟩
      · exact .inl (hkept ▸ h)
      · simp only [hworld, World.perform_notices] at h
        exact .inl h
  | control id raised hcontrol hawaits =>
      cases hawaits with
      | answered => exact .inl (World.perform_notices ▸ h)
      | raised => exact .inl h

theorem Cluster.announced_iff : cluster.announced turnId = true ↔
    cluster.world.notices turnId ≠ [] ∨
      ∃ control ∈ cluster.controls, control.hears turnId = true := by
  simp [Cluster.announced, List.any_eq_true]

theorem Cluster.weighed_iff : cluster.weighed turnId = true ↔
    ∃ control ∈ cluster.controls, control.weighs turnId = true := by
  simp [Cluster.weighed, List.any_eq_true]

theorem Cluster.suspected_iff : cluster.suspected turnId = true ↔
    ∃ control ∈ cluster.controls, control.suspects turnId = true := by
  simp [Cluster.suspected, List.any_eq_true]

theorem Control.hears_iff {control : Control} : control.hears turnId = true ↔
    control.live = true ∧ ∃ acquisition, control.kind = .listener turnId acquisition := by
  unfold Control.hears
  cases control.kind <;> simp

theorem Control.weighs_iff {control : Control} : control.weighs turnId = true ↔
    control.live = true ∧ control.history.weighed = false ∧
      (∃ row, control.history.examined = some row ∧ row.id = turnId) ∧
      ∀ target acquisition, control.kind ≠ .listener target acquisition := by
  unfold Control.weighs
  cases control.kind <;> simp [Option.any_eq_true, and_assoc]

theorem Control.suspects_iff {control : Control} : control.suspects turnId = true ↔
    control.live = true ∧ ∃ row ∈ control.history.stale, row.id = turnId := by
  simp [Control.suspects]

/-- What is announced after a step was announced before, or the lease has expired in it. -/
theorem Cluster.Steps.announced (hsteps : cluster.Steps action next)
    (h : next.announced turnId = true) :
    cluster.announced turnId = true ∨ next.world.lease turnId = none := by
  rcases Cluster.announced_iff.mp h with hnotice | ⟨after, hmem, hhears⟩
  · exact (hsteps.notice_before hnotice).imp (fun hbefore => Cluster.announced_iff.mpr (.inl hbefore))
      And.right
  · left
    obtain ⟨hlive, acquisition, hkind⟩ := Control.hears_iff.mp hhears
    obtain ⟨id, hafter⟩ := List.mem_iff_getElem?.mp hmem
    refine Cluster.announced_iff.mpr ?_
    rcases hsteps.control_before hafter hlive with
      ⟨kind, rfl, hnotice⟩ | ⟨control, hcontrol, hwas, hsame, _⟩
    · exact .inl (List.ne_nil_of_mem (hnotice turnId acquisition hkind))
    · exact .inr ⟨control, List.mem_of_getElem? hcontrol,
        Control.hears_iff.mpr ⟨hwas, acquisition, hsame.symm.trans hkind⟩⟩

/-- A row that is on record and not weighed was on record before, or has just been read. -/
theorem ControlHistory.done_weighing {history : ControlHistory} (hindexed : world.Indexed)
    (hweighed : (history.done op (world.perform self lost op).1).weighed = false) :
    ((history.done op (world.perform self lost op).1).examined = history.examined ∧
        history.weighed = false) ∨
      ((∀ row, (history.done op (world.perform self lost op).1).examined = some row →
        world.turns row.id = some row) ∧ ∀ turnId, op.beats turnId = false) := by
  cases op with
  | getTurn target => exact .inr ⟨fun row hrow => hindexed target row hrow ▸ hrow, fun _ => rfl⟩
  | getActiveForChat chatId => exact .inr ⟨fun row hrow => hindexed.of_active hrow, fun _ => rfl⟩
  | clock => cases hweighed
  | _ => exact .inl ⟨rfl, hweighed⟩

/-- The row that a path of recovery weighs after a step is one it weighed before, or has just read. -/
theorem Cluster.Steps.weighed (hsteps : cluster.Steps action next)
    (hindexed : cluster.world.Indexed) {id : Nat} {after : Control}
    (hafter : next.controls[id]? = some after) (hweighs : after.weighs turnId = true) :
    (∃ control, cluster.controls[id]? = some control ∧ control.weighs turnId = true ∧
        after.history.examined = control.history.examined) ∨
      ((∀ row, after.history.examined = some row → cluster.world.turns row.id = some row) ∧
        ∀ op, cluster.op action = some op → op.beats turnId = false) := by
  obtain ⟨hlive, hunweighed, hrow, hother⟩ := Control.weighs_iff.mp hweighs
  have hsame (control : Control) (hwas : control.live = true) (hkind : after.kind = control.kind)
      (hexamined : after.history.examined = control.history.examined)
      (hweighed : control.history.weighed = false) : control.weighs turnId = true :=
    Control.weighs_iff.mpr ⟨hwas, hweighed, hexamined ▸ hrow, hkind ▸ hother⟩
  rcases hsteps.control_before hafter hlive with
    ⟨kind, rfl, _⟩ | ⟨control, hcontrol, hwas, hkind, hkept | ⟨op, raised, rfl, hop, hdone, hfault⟩⟩
  · obtain ⟨row, hnone, _⟩ := hrow
    cases hnone
  · have hexamined := congrArg ControlHistory.examined hkept
    exact .inl ⟨control, hcontrol, hsame control hwas hkind hexamined (hkept ▸ hunweighed), hexamined⟩
  · cases raised with
    | some failure =>
        have hrecord := hfault failure rfl
        have hexamined := congrArg ControlHistory.examined hrecord
        have hweighed := congrArg ControlHistory.weighed hrecord
        exact .inl ⟨control, hcontrol, hsame control hwas hkind hexamined
          (hweighed.symm.trans hunweighed), hexamined⟩
    | none =>
        have hrecord := hdone rfl
        rcases ControlHistory.done_weighing hindexed (hrecord ▸ hunweighed) with
          ⟨hexamined, hweighed⟩ | ⟨hread, hquiet⟩
        · replace hexamined := (congrArg ControlHistory.examined hrecord).trans hexamined
          exact .inl ⟨control, hcontrol, hsame control hwas hkind hexamined hweighed, hexamined⟩
        · refine .inr ⟨hrecord ▸ hread, fun other hother => ?_⟩
          obtain rfl : op = other := by simpa [Cluster.op, hcontrol, hop] using hother
          exact hquiet turnId

/-- Who comes to suspect the turn in a step has looked at it. -/
theorem Cluster.Steps.suspected (hsteps : cluster.Steps action next)
    (h : next.suspected turnId = true) :
    cluster.suspected turnId = true ∨ ∃ id control op,
      action = .control id none ∧ cluster.controls[id]? = some control ∧ control.live = true ∧
      control.program.op = some op ∧ (¬∃ row ∈ control.history.stale, row.id = turnId) ∧
      ∃ row ∈ (control.history.done op (cluster.world.perform id false op).1).stale,
        row.id = turnId := by
  obtain ⟨after, hmem, hsuspects⟩ := Cluster.suspected_iff.mp h
  obtain ⟨hlive, hstale⟩ := Control.suspects_iff.mp hsuspects
  obtain ⟨id, hafter⟩ := List.mem_iff_getElem?.mp hmem
  have hbefore (control : Control) (hcontrol : cluster.controls[id]? = some control)
      (hwas : control.live = true) (hold : ∃ row ∈ control.history.stale, row.id = turnId) :
      cluster.suspected turnId = true :=
    Cluster.suspected_iff.mpr
      ⟨control, List.mem_of_getElem? hcontrol, Control.suspects_iff.mpr ⟨hwas, hold⟩⟩
  rcases hsteps.control_before hafter hlive with
    ⟨kind, rfl, _⟩ | ⟨control, hcontrol, hwas, _, hkept | ⟨op, raised, rfl, hop, hdone, hfault⟩⟩
  · obtain ⟨row, hrow, _⟩ := hstale
    cases hrow
  · exact .inl (hbefore control hcontrol hwas (hkept ▸ hstale))
  · cases raised with
    | some failure =>
        rw [hfault failure rfl] at hstale
        exact .inl (hbefore control hcontrol hwas hstale)
    | none =>
        rw [hdone rfl] at hstale
        by_cases hold : ∃ row ∈ control.history.stale, row.id = turnId
        · exact .inl (hbefore control hcontrol hwas hold)
        · exact .inr ⟨id, control, op, rfl, hcontrol, hwas, hop, hold, hstale⟩

/-! ### The invariant -/

/-- What recovery has been told of an active turn is so. -/
structure Cluster.Current (turnId : Nat) (cluster : Cluster) : Prop where
  announced : cluster.announced turnId = true →
    cluster.world.decided turnId = true ∨ cluster.world.lease turnId = none
  weighed : ∀ control ∈ cluster.controls, control.weighs turnId = true →
    cluster.world.decided turnId = true ∨ ∃ row seen, cluster.world.turns turnId = some row ∧
      control.history.examined = some seen ∧ row.heartbeatAt = seen.heartbeatAt
  suspected : cluster.suspected turnId = true →
    cluster.world.decided turnId = true ∨
      (cluster.world.overdue turnId = true ∧ cluster.held turnId = false)

/-- What the condition says of a step while the turn is not decided. -/
theorem Cluster.current_op (hcurrent : cluster.current turnId action = true)
    (hopen : cluster.world.decided turnId = false) (hop : cluster.op action = some op)
    (hraised : action.raised = none) :
    (cluster.announced turnId = true ∨ cluster.suspected turnId = true →
        op.takesLease turnId = false) ∧
      (cluster.weighed turnId = true ∨ cluster.suspected turnId = true →
        op.beats turnId = false) ∧
      ∀ id raised control, action = .control id raised → cluster.controls[id]? = some control →
        control.judges turnId op = true → cluster.late turnId = false := by
  simp only [Cluster.current, hopen, hraised, hop, Option.isSome_none, Option.all_some,
    Bool.false_or, Bool.and_eq_true, Bool.or_eq_true, Bool.not_eq_true', Bool.or_eq_false_iff]
    at hcurrent
  obtain ⟨⟨htakes, hbeats⟩, hlooks⟩ := hcurrent
  refine ⟨fun hknown => htakes.resolve_right fun hnone => ?_,
    fun hknown => hbeats.resolve_right fun hnone => ?_, ?_⟩
  · rcases hknown with hknown | hknown
    · simp [hnone.1] at hknown
    · simp [hnone.2] at hknown
  · rcases hknown with hknown | hknown
    · simp [hnone.1] at hknown
    · simp [hnone.2] at hknown
  · rintro id raised control rfl hcontrol hjudges
    simpa [hcontrol, hjudges] using hlooks

/-- Handlers and recovery neither take a lease nor commit a heartbeat. -/
theorem ControlAllowed.quiet {kind : ControlKind} {history : ControlHistory}
    (h : ControlAllowed kind history op) :
    op.takesLease turnId = false ∧ op.beats turnId = false := by
  cases op with
  | setLeaseNx | heartbeat | markRunning => exact h.elim
  | _ => exact ⟨rfl, rfl⟩

/-- **Who comes to suspect the turn has seen a heartbeat that is too old**, and the committed one is
that. -/
theorem Cluster.Current.judged (h : cluster.Current turnId) (hconforms : cluster.Conforms)
    (hindexed : cluster.world.Indexed) {id : Nat} {control : Control}
    (hcontrol : cluster.controls[id]? = some control) (hlive : control.live = true)
    (hop : control.program.op = some op) (hold : ¬∃ row ∈ control.history.stale, row.id = turnId)
    (hnew : ∃ row ∈ (control.history.done op (cluster.world.perform id false op).1).stale,
      row.id = turnId) :
    control.judges turnId op = true ∧
      (cluster.world.decided turnId = true ∨ cluster.world.overdue turnId = true) := by
  have hmem := List.mem_of_getElem? hcontrol
  have hallowed := (hconforms.controls control hmem).allowed hop
  obtain ⟨row, hrow, hid⟩ := hnew
  cases op with
  | findStaleActive threshold =>
      obtain rfl : threshold = Recovery.staleThreshold := hallowed
      obtain ⟨hrows, hstale⟩ := List.mem_filter.mp hrow
      have hcommitted : cluster.world.turns turnId = some row := hid ▸ hindexed.of_rows hrows
      have hbefore := (of_decide_eq_true hstale).2
      exact ⟨rfl, .inr ((Option.any_eq_true ..).mpr ⟨row, hcommitted, decide_eq_true hbefore.le⟩)⟩
  | clock =>
      rcases List.mem_append.mp hrow with hbefore | hseen
      · exact absurd ⟨row, hbefore, hid⟩ hold
      obtain ⟨hexamined, hstale⟩ := List.mem_filter.mp hseen
      replace hexamined := Option.mem_toList.mp hexamined
      have hage : Recovery.staleThreshold ≤ cluster.world.now - row.heartbeatAt :=
        of_decide_eq_true hstale
      have hweighs : control.weighs turnId = true :=
        Control.weighs_iff.mpr ⟨hlive, hallowed.1, ⟨row, hexamined, hid⟩, hallowed.2⟩
      refine ⟨hweighs, (h.weighed control hmem hweighs).imp_right ?_⟩
      rintro ⟨committed, seen, hcommitted, hseen, hsame⟩
      obtain rfl := Option.some.inj (hexamined.symm.trans hseen)
      have hpos : 0 < Recovery.staleThreshold := by decide
      refine (Option.any_eq_true ..).mpr ⟨committed, hcommitted, decide_eq_true ?_⟩
      omega
  | _ => exact absurd ⟨row, hrow, hid⟩ hold

theorem Cluster.Current.step (h : cluster.Current turnId) (hconforms : cluster.Conforms)
    (htimed : cluster.world.Timed) (hindexed : cluster.world.Indexed)
    (htokens : cluster.Tokens) (hcurrent : cluster.current turnId action = true)
    (hsteps : cluster.Steps action next) : next.Current turnId := by
  by_cases hopen : cluster.world.decided turnId = true
  · have hdecided := hsteps.decided htimed hopen
    exact ⟨fun _ => .inl hdecided, fun _ _ _ => .inl hdecided, fun _ => .inl hdecided⟩
  rw [Bool.not_eq_true] at hopen
  have hop {op : Op} (hop : cluster.op action = some op) (hraised : action.raised = none) :=
    Cluster.current_op hcurrent hopen hop hraised
  constructor
  · intro hannounced
    right
    rcases hsteps.announced hannounced with hbefore | hexpired
    · have hfree := (h.announced hbefore).resolve_left (by simp [hopen])
      refine Option.eq_none_iff_forall_ne_some.mpr fun entry hentry => ?_
      rcases hsteps.lease_taken hentry with ⟨before, hheld, _⟩ | ⟨op, hawaits, hraised, htakes, _⟩
      · cases hfree.symm.trans hheld
      · have hquiet := (hop hawaits hraised).1 (.inl hbefore)
        simp [hquiet] at htakes
    · exact hexpired
  · intro after hmem hweighs
    right
    obtain ⟨id, hafter⟩ := List.mem_iff_getElem?.mp hmem
    obtain ⟨-, -, ⟨seen, hseen, hid⟩, -⟩ := Control.weighs_iff.mp hweighs
    have hlater {row : TurnRow} (hrow : cluster.world.turns turnId = some row)
        (hquiet : ∀ op, cluster.op action = some op → action.raised = none →
          op.beats turnId = false) (hsame : row.heartbeatAt = seen.heartbeatAt) :
        ∃ row seen, next.world.turns turnId = some row ∧ after.history.examined = some seen ∧
          row.heartbeatAt = seen.heartbeatAt := by
      obtain ⟨later, hlater, hkept⟩ := hsteps.heartbeat_kept htimed hquiet hrow
      exact ⟨later, seen, hlater, hseen, hkept.trans hsame⟩
    rcases hsteps.weighed hindexed hafter hweighs with
      ⟨control, hcontrol, hweighed, hexamined⟩ | ⟨hread, hquiet⟩
    · have hbefore := List.mem_of_getElem? hcontrol
      obtain ⟨row, shown, hrow, hshown, hsame⟩ :=
        (h.weighed control hbefore hweighed).resolve_left (by simp [hopen])
      obtain rfl := Option.some.inj (hseen.symm.trans (hexamined.trans hshown))
      refine hlater hrow (fun op hawaits hraised => (hop hawaits hraised).2.1 (.inl ?_)) hsame
      exact Cluster.weighed_iff.mpr ⟨control, hbefore, hweighed⟩
    · exact hlater (hid ▸ hread seen hseen) (fun op hawaits _ => hquiet op hawaits) rfl
  · intro hsuspected
    right
    rcases hsteps.suspected hsuspected with
      hbefore | ⟨id, control, op, rfl, hcontrol, hlive, hawaits, hold, hnew⟩
    · obtain ⟨hoverdue, hfree⟩ := (h.suspected hbefore).resolve_left (by simp [hopen])
      exact ⟨hsteps.overdue htimed (fun op hawaits hraised => (hop hawaits hraised).2.1 (.inr hbefore))
          hoverdue,
        hsteps.unheld htokens (fun op hawaits hraised => (hop hawaits hraised).1 (.inr hbefore)) hfree⟩
    · obtain ⟨hjudges, hoverdue⟩ := h.judged hconforms hindexed hcontrol hlive hawaits hold hnew
      replace hoverdue := hoverdue.resolve_left (by simp [hopen])
      have hclusterOp : cluster.op (.control id none) = some op := by
        simp [Cluster.op, hcontrol, hawaits]
      have hlate := (hop hclusterOp rfl).2.2 id none control rfl hcontrol hjudges
      have hfree : cluster.held turnId = false := by
        simpa [Cluster.late, hoverdue] using hlate
      have hquiet (other : Op) (hother : cluster.op (.control id none) = some other) :
          other.takesLease turnId = false ∧ other.beats turnId = false := by
        cases hconforms.actor hother with
        | control _ _ _ hallowed => exact hallowed.quiet
      exact ⟨hsteps.overdue htimed (fun other hother _ => (hquiet other hother).2) hoverdue,
        hsteps.unheld htokens (fun other hother _ => (hquiet other hother).1) hfree⟩

theorem reach_current {users : Nat → Bool}
    (hreach : Reach Cluster.step (fun cluster action => cluster.current turnId action = true)
      (Cluster.init users) cluster) : cluster.Current turnId := by
  refine hreach.invariant_with (Cluster.Current turnId)
    (fun hbefore => And.intro (And.intro (reach_conforms hbefore) (reach_timed hbefore))
      (And.intro (reach_indexed hbefore) (reach_tokens hbefore))) ?_ ?_
  · exact ⟨fun hannounced => by simp [Cluster.announced, Cluster.init, World.empty] at hannounced,
      fun _ hmem => absurd hmem List.not_mem_nil,
      fun hsuspected => by simp [Cluster.suspected, Cluster.init] at hsuspected⟩
  · intro before action after hknown h hcurrent hstep
    exact h.step hknown.1.1 hknown.1.2 hknown.2.1 hknown.2.2 hcurrent (Cluster.steps_of_step hstep)

/-! ### The listener keeps to the turn of its message -/

def ListenerAllowed (turnId : Nat) (found : Option TurnRow) : Op → Prop
  | .getTurn target => target = turnId
  | .finalizeOnce target .. => ∃ row, found = some row ∧ target = row.id
  | .getActiveForChat _ => False
  | _ => True

/-- The row that was read last. -/
def rowRead (found : Option TurnRow) : (op : Op) → op.Val → Option TurnRow
  | .getTurn _, row => row
  | _, _ => found

def listenerMonitor (turnId : Nat) : Monitor Op Op.Val Fault (Option TurnRow) where
  allowed := ListenerAllowed turnId
  next found op
    | .ok value => rowRead found op value
    | .error _ => found

theorem Recovery.leaseExpiredMessage_own (turnId : Nat) :
    (Recovery.leaseExpiredMessage turnId).thread.wp (listenerMonitor turnId)
      (fun out _ _ => nomatch out) (fun _ _ => True) none := by
  unfold ControlCode.thread
  rw [Program.wp_bind]
  have hrun : Async.wp (listenerMonitor turnId) (fun out _ _ => nomatch out)
      (Recovery.leaseExpiredMessage turnId) (fun _ _ _ => True) () none := by
    unfold Recovery.leaseExpiredMessage Recovery.finalizeLeaseExpired
    rw [wp_exceptException]
    refine (wp_await_bind _ _).mpr ⟨rfl, fun found => ?_, fun failure => ?_⟩
    · cases found with
      | none => trivial
      | some row =>
          rw [wp_ite]
          split
          · refine (wp_await_bind _ _).mpr ⟨⟨row, rfl, rfl⟩, fun _ => ?_, fun failure => ?_⟩
            · unfold Locks.releaseActive
              rw [wp_bind, wp_orOnRedisError]
              refine (wp_await _).mpr ⟨trivial, fun _ => trivial, fun failure => ?_⟩
              cases failure <;> trivial
            · cases failure <;> trivial
          · trivial
    · cases failure <;> trivial
  exact hrun

/-- The rest of a listener's code, with the row it has read. -/
def Control.Heeds (control : Control) : Prop :=
  ∀ target acquisition, control.kind = .listener target acquisition →
    ∃ found, control.program.wp (listenerMonitor target) (fun out _ _ => nomatch out)
      (fun _ _ => True) found ∧ ∀ row, found = some row → row.id = target

theorem Cluster.Steps.heeds (hsteps : cluster.Steps action next) (hindexed : cluster.world.Indexed)
    (h : ∀ control ∈ cluster.controls, control.Heeds) : ∀ control ∈ next.controls, control.Heeds := by
  intro after hmem target acquisition hkind
  obtain ⟨id, hafter⟩ := List.mem_iff_getElem?.mp hmem
  cases hsteps.controls hafter with
  | started kind haction hnotice hid hstarted =>
      subst hstarted
      obtain rfl : kind = .listener target acquisition := hkind
      refine ⟨none, Recovery.leaseExpiredMessage_own target, fun row hrow => ?_⟩
      cases hrow
  | kept control haction hcontrol hsame hprogram =>
      rw [hprogram]
      exact h control (List.mem_of_getElem? hcontrol) target acquisition (hsame ▸ hkind)
  | advanced control op raised haction hcontrol hawaits =>
      obtain ⟨found, hwp, hown⟩ := h control (List.mem_of_getElem? hcontrol) target acquisition
        (hawaits.kind_eq ▸ hkind)
      generalize next.world = world at hawaits
      cases hawaits with
      | raised failure rest hprogram =>
          rw [hprogram] at hwp
          exact ⟨found, hwp.2 (.error failure), hown⟩
      | answered rest hprogram =>
          rw [hprogram] at hwp
          refine ⟨_, hwp.2 (.ok _), ?_⟩
          cases op with
          | getTurn other =>
              obtain rfl : other = target := hwp.1
              exact fun row hrow => hindexed other row hrow
          | _ => exact hown

theorem reach_heeds {Allowed : Cluster → ClusterAction → Prop} {users : Nat → Bool}
    (hreach : Reach Cluster.step Allowed (Cluster.init users) cluster) :
    ∀ control ∈ cluster.controls, control.Heeds := by
  refine hreach.invariant_with (fun cluster => ∀ control ∈ cluster.controls, control.Heeds)
    reach_indexed (fun control hmem => absurd hmem List.not_mem_nil)
    fun before action after hindexed h _ hstep => (Cluster.steps_of_step hstep).heeds hindexed h

/-- What a listener finalises is the turn of its message. -/
theorem Control.Heeds.target {control : Control} (h : control.Heeds) {target acquisition : Nat}
    (hkind : control.kind = .listener target acquisition) {status : TerminalStatus}
    {errorCode errorDetail : Option String}
    (hop : control.program.op = some (.finalizeOnce turnId status errorCode errorDetail)) :
    target = turnId := by
  obtain ⟨found, hwp, hown⟩ := h target acquisition hkind
  obtain ⟨rest, hprogram⟩ := Thread.op_eq_some hop
  rw [hprogram] at hwp
  obtain ⟨row, hrow, rfl⟩ := hwp.1
  exact (hown row hrow).symm

/-! ### Runs -/

/-- A path of recovery that finalises with this code: the listener, the sweep, the inline check, or the
handler with the inline check. -/
def Control.recovers (control : Control) (errorCode : Option String) : Prop :=
  match control.kind with
  | .listener .. | .sweep | .inline _ => True
  | .handler _ => errorCode = some "orphan_heartbeat"
  | .shutdown _ => False

/-- Who recovers a turn and is not the listener has seen an old heartbeat of it. -/
theorem Control.recovers_stale {control : Control} (hconforms : control.Conforms)
    {status : TerminalStatus} {errorCode errorDetail : Option String}
    (hop : control.program.op = some (.finalizeOnce turnId status errorCode errorDetail))
    (hrecovers : control.recovers errorCode)
    (hother : ∀ target acquisition, control.kind ≠ .listener target acquisition) :
    ∃ row ∈ control.history.stale, row.id = turnId := by
  have hallowed := hconforms.allowed hop
  unfold Control.recovers at hrecovers
  cases hkind : control.kind with
  | listener target acquisition => exact absurd hkind (hother target acquisition)
  | sweep | inline =>
      rw [hkind] at hallowed
      exact hallowed.2.1
  | handler prepared =>
      rw [hkind] at hrecovers
      exact hallowed.2.2 hrecovers
  | shutdown holder =>
      rw [hkind] at hrecovers
      exact hrecovers.elim

/-- **Recovery ends dead turns.** While nothing overtakes recovery, a `finalize_once` of it that
matches finds the lease held by no live execution, and one on account of a heartbeat finds the
committed heartbeat too old. -/
theorem recovery_ends_dead {users : Nat → Bool}
    (hreach : Reach Cluster.step (fun cluster action => cluster.current turnId action = true)
      (Cluster.init users) cluster) {id : Nat} {control : Control}
    (hcontrol : cluster.controls[id]? = some control) (hrunning : control.running = true)
    {status : TerminalStatus} {errorCode errorDetail : Option String}
    (hop : control.program.op = some (.finalizeOnce turnId status errorCode errorDetail))
    (hrecovers : control.recovers errorCode)
    (hwins : (cluster.world.perform id false
      (.finalizeOnce turnId status errorCode errorDetail)).1 = true) :
    cluster.held turnId = false ∧
      ((∀ target acquisition, control.kind ≠ .listener target acquisition) →
        cluster.world.overdue turnId = true) := by
  have hcurrent := reach_current hreach
  have hmem := List.mem_of_getElem? hcontrol
  have hlive : control.live = true := by
    simp [Control.live, hrunning, Thread.ended, hop]
  have hopen : cluster.world.decided turnId = false := by
    obtain ⟨row, hrow, hactive⟩ : ∃ row, cluster.world.turns turnId = some row ∧
        row.status.isTerminal = false := by
      simp only [World.perform, World.updateTurn] at hwins
      cases hrow : cluster.world.turns turnId with
      | none => simp [hrow] at hwins
      | some row =>
          refine ⟨row, rfl, Bool.eq_false_iff.mpr fun hterminal => ?_⟩
          simp [hrow, TurnRow.finalizeOnce, hterminal] at hwins
    simp [World.decided, hrow, hactive]
  by_cases hlistener : ∃ target acquisition, control.kind = .listener target acquisition
  · obtain ⟨target, acquisition, hkind⟩ := hlistener
    obtain rfl := (reach_heeds hreach control hmem).target hkind hop
    have hannounced : cluster.announced target = true := Cluster.announced_iff.mpr
      (.inr ⟨control, hmem, Control.hears_iff.mpr ⟨hlive, acquisition, hkind⟩⟩)
    have hfree := (hcurrent.announced hannounced).resolve_left (by simp [hopen])
    exact ⟨by simp [Cluster.held, hfree], fun hother => absurd hkind (hother target acquisition)⟩
  · have hother (target acquisition : Nat) : control.kind ≠ .listener target acquisition :=
      fun hkind => hlistener ⟨target, acquisition, hkind⟩
    have hconforms := (reach_conforms hreach).controls control hmem
    have hstale := Control.recovers_stale hconforms hop hrecovers hother
    have hsuspected : cluster.suspected turnId = true :=
      Cluster.suspected_iff.mpr ⟨control, hmem, Control.suspects_iff.mpr ⟨hlive, hstale⟩⟩
    obtain ⟨hoverdue, hfree⟩ := (hcurrent.suspected hsuspected).resolve_left (by simp [hopen])
    exact ⟨hfree, fun _ => hoverdue⟩

end

/-! ### A worker that dies, and a worker that comes back -/

/-- The status, code and text a `finalize_once` writes, and whether it would match. -/
structure Finalisation where
  turnId : Nat
  status : TerminalStatus
  errorCode : Option String
  errorDetail : Option String
  wins : Bool
deriving DecidableEq

def World.finalisation (world : World) : Op → Option Finalisation
  | .finalizeOnce turnId status errorCode errorDetail =>
      some ⟨turnId, status, errorCode, errorDetail,
        (world.perform 0 false (.finalizeOnce turnId status errorCode errorDetail)).1⟩
  | _ => none

theorem World.finalisation_eq {world : World} {op : Op} {finalisation : Finalisation}
    (h : world.finalisation op = some finalisation) :
    op = .finalizeOnce finalisation.turnId finalisation.status finalisation.errorCode
        finalisation.errorDetail ∧
      finalisation.wins = (world.perform 0 false (.finalizeOnce finalisation.turnId
        finalisation.status finalisation.errorCode finalisation.errorDetail)).1 := by
  cases op with
  | finalizeOnce =>
      cases h
      exact ⟨rfl, rfl⟩
  | _ => cases h

def Control.sweeps (control : Control) : Bool :=
  match control.kind with
  | .sweep => true
  | _ => false

theorem Control.sweeps_iff {control : Control} :
    control.sweeps = true ↔ control.kind = .sweep := by
  unfold Control.sweeps
  cases control.kind <;> simp

/-- What the controls that run are about to finalise, and whether a live execution holds the lease of
the turn. -/
def Cluster.finalises (cluster : Cluster) : List (Bool × Option Finalisation) × Bool :=
  (cluster.controls.map fun control =>
    (control.running, control.program.op.bind cluster.world.finalisation), cluster.held 1)

/-- The worker dies with the lease, and two minutes later a process that starts sweeps the turns. -/
def sweptTurn : List ClusterAction :=
  executedTurn (List.replicate 6 (.advance 0 none) ++ .crash 1 :: List.replicate 121 .tick ++
    [.spawn .sweep, .control 1 none])

def orphanHeartbeat : Finalisation :=
  ⟨1, .failed, some "orphan_heartbeat", some "no heartbeat for >120.0s", true⟩

theorem recovery_ends_dead_swept : ∃ cluster,
    run Cluster.step (Cluster.init fun _ => true) sweptTurn = some cluster ∧
    cluster.finalises.1[1]? = some (true, some orphanHeartbeat) ∧ cluster.held 1 = false ∧
    cluster.world.overdue 1 = true := by
  have hallowed : RunAllowed Cluster.step (fun cluster action => cluster.current 1 action = true)
      (Cluster.init fun _ => true) sweptTurn := by decide +kernel
  have hseen : (run Cluster.step (Cluster.init fun _ => true) sweptTurn).map (fun cluster =>
      cluster.finalises.1[1]?) = some (some (true, some orphanHeartbeat)) := by decide +kernel
  have hsweeps : (run Cluster.step (Cluster.init fun _ => true) sweptTurn).map (fun cluster =>
      (cluster.controls[1]?).map fun control => control.sweeps) = some (some true) := by
    decide +kernel
  obtain ⟨cluster, hrun, hfinalises⟩ := Option.map_eq_some_iff.mp hseen
  obtain ⟨control, hcontrol, hpair⟩ : ∃ control, cluster.controls[1]? = some control ∧
      (control.running, control.program.op.bind cluster.world.finalisation) =
        (true, some orphanHeartbeat) := by
    simpa [Cluster.finalises] using hfinalises
  obtain ⟨hrunning, hbind⟩ := Prod.mk.inj hpair
  obtain ⟨op, hop, hfinalisation⟩ := Option.bind_eq_some_iff.mp hbind
  obtain ⟨rfl, hwins⟩ := World.finalisation_eq hfinalisation
  have hkind : control.kind = .sweep :=
    Control.sweeps_iff.mp (by simpa [hrun, hcontrol] using hsweeps)
  obtain ⟨hfree, hoverdue⟩ := recovery_ends_dead (reach_of_run hrun hallowed) hcontrol hrunning hop
    (by simp [Control.recovers, hkind]) hwins.symm
  exact ⟨cluster, hrun, hfinalises, hfree, hoverdue (by simp [hkind])⟩

def leaseExpired : Finalisation :=
  ⟨1, .failed, some "lease_expired", some "worker lease expired without release", true⟩

/-- The queue delivers the turn again after the lease has run out, and a live execution holds the
lease when the listener finalises the turn. -/
example : (run Cluster.step (Cluster.init fun _ => true)
    (executedTurn (List.replicate 6 (.advance 0 none) ++ .crash 1 :: List.replicate 30 .tick ++
      .deliver answered false :: List.replicate 6 (.advance 1 none) ++
      [.spawn (.listener 1 1), .control 1 none]))).map (fun cluster =>
        (cluster.finalises.1[1]?, cluster.finalises.2)) =
    some (some (true, some leaseExpired), true) := by
  decide

end CodexServer
