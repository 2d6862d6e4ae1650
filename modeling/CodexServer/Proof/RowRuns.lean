import CodexServer.Proof.Runs

/-!
# Rows along a run

A row leads to every later one, and it is there from the moment on that its turn is handed to
anybody. A statement that does not finalise it leaves an active row active.
-/

open Transition

namespace CodexServer

/-- What is known about the rows: their ids have been given out, and no heartbeat is of the future. -/
structure World.Timed (world : World) : Prop where
  id : ∀ turnId row, world.turns turnId = some row → turnId ≤ world.lastTurnId
  heartbeat : ∀ turnId row, world.turns turnId = some row → row.heartbeatAt ≤ world.now

section

variable {world after : World} {self turnId : Nat} {lost : Bool} {op : Op} {row : TurnRow}

theorem World.Effect.lastTurnId_le (h : world.Effect self op after) :
    world.lastTurnId ≤ after.lastTurnId := by
  cases h with
  | created => exact Nat.le_succ _
  | _ => exact le_rfl

theorem World.Effect.now_eq (h : world.Effect self op after) : after.now = world.now := by
  cases h <;> rfl

/-- The row of a turn leads to the one after an operation. -/
theorem World.Timed.row_leads (h : world.Timed) (hrow : world.turns turnId = some row) :
    ∃ after, (world.perform self lost op).2.turns turnId = some after ∧ row.Leads after := by
  have hstep : RowStep world op turnId (world.turns turnId)
      ((world.perform self lost op).2.turns turnId) := perform_row
  generalize (world.perform self lost op).2.turns turnId = later at hstep ⊢
  rw [hrow] at hstep
  generalize hbefore : some row = before at hstep
  cases hstep with
  | unchanged => exact ⟨row, hbefore.symm, .refl row⟩
  | updated statement hstatement happly =>
      obtain rfl := Option.some.inj hbefore
      exact ⟨_, rfl, (TurnUpdate.apply_leads hstatement happly (h.heartbeat turnId row hrow)).1⟩
  | created _ payload hop huser hturn =>
      have hid := h.id turnId row hrow
      omega

/-- A row that is there after an insertion has an id that has been given out. -/
theorem World.Timed.id_createTurn (h : world.Timed) (payload : TurnCreate)
    (hrow : (world.createTurn self payload).2.turns turnId = some row) :
    turnId ≤ (world.createTurn self payload).2.lastTurnId := by
  unfold World.createTurn at hrow ⊢
  split at hrow
  · rename_i hbusy
    simp only [hbusy, if_true]
    exact h.id turnId row hrow
  · rename_i hfree
    simp only [hfree, if_false]
    by_cases hturn : turnId = world.lastTurnId + 1
    · exact hturn.le
    · simp only [Function.update_of_ne hturn] at hrow
      exact (h.id turnId row hrow).trans (Nat.le_succ _)

theorem World.Timed.perform (h : world.Timed) : (world.perform self lost op).2.Timed := by
  have heffect := perform_effect world self lost op
  constructor
  · intro turnId row hrow
    have hstep : RowStep world op turnId (world.turns turnId)
        ((world.perform self lost op).2.turns turnId) := perform_row
    rw [hrow] at hstep
    generalize hbefore : world.turns turnId = before at hstep
    generalize hafter : some row = after at hstep
    cases hstep with
    | unchanged =>
        exact (h.id turnId row (hbefore.trans hafter.symm)).trans heffect.lastTurnId_le
    | updated => exact (h.id turnId _ hbefore).trans heffect.lastTurnId_le
    | created _ payload hop =>
        subst hop
        exact h.id_createTurn payload hrow
  · intro turnId row hrow
    rw [heffect.now_eq]
    have hstep : RowStep world op turnId (world.turns turnId)
        ((world.perform self lost op).2.turns turnId) := perform_row
    rw [hrow] at hstep
    generalize hbefore : world.turns turnId = before at hstep
    generalize hafter : some row = after at hstep
    cases hstep with
    | unchanged => exact h.heartbeat turnId row (hbefore.trans hafter.symm)
    | updated statement hstatement happly =>
        obtain rfl := Option.some.inj hafter
        exact (TurnUpdate.apply_leads hstatement happly (h.heartbeat turnId _ hbefore)).2
    | created _ payload =>
        obtain rfl := Option.some.inj hafter
        exact le_rfl

variable {cluster next : Cluster} {action : ClusterAction} {id : Nat}

theorem World.Timed.step (h : cluster.world.Timed) (hsteps : cluster.Steps action next) :
    next.world.Timed := by
  generalize hworld : next.world = world
  have hshared := hsteps.shared
  rw [hworld] at hshared
  cases hshared with
  | tick => exact ⟨h.id, fun turnId row hrow => (h.heartbeat turnId row hrow).trans (Nat.le_succ _)⟩
  | performed => exact h.perform
  | bookkeeping => exact ⟨h.id, h.heartbeat⟩

theorem reach_timed {Allowed : Cluster → ClusterAction → Prop} {users : Nat → Bool}
    (hreach : Reach Cluster.step Allowed (Cluster.init users) cluster) : cluster.world.Timed := by
  refine hreach.invariant (fun cluster => cluster.world.Timed) ?_ fun _ _ _ h _ hstep =>
    h.step (Cluster.steps_of_step hstep)
  exact ⟨fun _ _ => nofun, fun _ _ => nofun⟩

/-- A row has the id it is found under. -/
def World.Indexed (world : World) : Prop :=
  ∀ turnId row, world.turns turnId = some row → row.id = turnId

theorem World.Indexed.of_rows (h : world.Indexed) {row : TurnRow} (hmem : row ∈ world.rows) :
    world.turns row.id = some row := by
  obtain ⟨key, -, hkey⟩ := List.mem_filterMap.mp hmem
  exact h key row hkey ▸ hkey

theorem World.Indexed.of_active (h : world.Indexed) {chatId : Nat} {row : TurnRow}
    (hrow : world.activeForChat chatId = some row) : world.turns row.id = some row :=
  h.of_rows (List.mem_of_find?_eq_some hrow)

theorem World.Indexed.perform (h : world.Indexed) (htimed : world.Timed) :
    (world.perform self lost op).2.Indexed := by
  intro turnId after hafter
  have hstep : RowStep world op turnId (world.turns turnId)
      ((world.perform self lost op).2.turns turnId) := perform_row
  rw [hafter] at hstep
  generalize hbefore : world.turns turnId = before at hstep
  generalize hlater : some after = later at hstep
  cases hstep with
  | unchanged => exact h turnId after (hbefore.trans hlater.symm)
  | updated statement hstatement happly =>
      obtain rfl := Option.some.inj hlater
      have hleads := TurnUpdate.apply_leads hstatement happly (htimed.heartbeat turnId _ hbefore)
      exact hleads.1.id.trans (h turnId _ hbefore)
  | created _ payload hop huser hturn =>
      obtain rfl := Option.some.inj hlater
      rfl

theorem reach_indexed {Allowed : Cluster → ClusterAction → Prop} {users : Nat → Bool}
    (hreach : Reach Cluster.step Allowed (Cluster.init users) cluster) : cluster.world.Indexed := by
  refine hreach.invariant_with (fun cluster => cluster.world.Indexed) reach_timed (fun _ _ => nofun)
    fun before action after htimed h _ hstep => ?_
  generalize hworld : after.world = world
  have hshared := (Cluster.steps_of_step hstep).shared
  rw [hworld] at hshared
  cases hshared with
  | tick | bookkeeping => exact h
  | performed => exact h.perform htimed

/-- **A row leads to the one after a step.** -/
theorem Cluster.Steps.row_leads (hsteps : cluster.Steps action next) (h : cluster.world.Timed)
    (hrow : cluster.world.turns turnId = some row) :
    ∃ after, next.world.turns turnId = some after ∧ row.Leads after := by
  generalize hworld : next.world = world
  have hshared := hsteps.shared
  rw [hworld] at hshared
  cases hshared with
  | tick | bookkeeping => exact ⟨row, hrow, .refl row⟩
  | performed => exact h.row_leads hrow

/-! ### The status -/

/-- A statement that does not finalise a row. -/
theorem TurnUpdate.apply_active {statement : TurnUpdate} {before after : TurnRow}
    (happly : statement.apply before = some after)
    (hfinal : ∀ status errorCode errorDetail now,
      statement ≠ .finalizeOnce status errorCode errorDetail now) :
    after.status.isActive = before.status.isActive := by
  cases statement with
  | markRunning threadId codexTurnId now =>
      obtain ⟨hstarting, hafter⟩ := Option.ite_none_right_eq_some.mp happly
      cases hafter
      rw [hstarting]
      rfl
  | heartbeat now =>
      obtain ⟨_, hafter⟩ := Option.ite_none_right_eq_some.mp happly
      cases hafter
      rfl
  | setStreamKey | attachAssistantMessage | updateLastEvent =>
      cases happly
      rfl
  | finalizeOnce status errorCode errorDetail now => exact absurd rfl (hfinal _ _ _ _)

/-- An operation that finalises another turn, or none. -/
def Op.leavesStatus (turnId : Nat) : Op → Prop
  | .finalizeOnce other .. => other ≠ turnId
  | _ => True

/-- An operation that does not finalise the turn. -/
theorem World.Timed.status_kept (h : world.Timed) (hrow : world.turns turnId = some row)
    (hop : op.leavesStatus turnId) (self : Nat) (lost : Bool) :
    ∃ after, (world.perform self lost op).2.turns turnId = some after ∧ row.Leads after ∧
      after.status.isActive = row.status.isActive := by
  have hstep : RowStep world op turnId (world.turns turnId)
      ((world.perform self lost op).2.turns turnId) := perform_row
  generalize (world.perform self lost op).2.turns turnId = later at hstep ⊢
  rw [hrow] at hstep
  generalize hbefore : some row = before at hstep
  cases hstep with
  | unchanged => exact ⟨row, hbefore.symm, .refl row, rfl⟩
  | updated statement hstatement happly =>
      obtain rfl := Option.some.inj hbefore
      refine ⟨_, rfl, (TurnUpdate.apply_leads hstatement happly (h.heartbeat turnId row hrow)).1,
        TurnUpdate.apply_active happly fun status errorCode errorDetail now hfinal => ?_⟩
      subst hfinal
      cases op with
      | finalizeOnce other =>
          cases hstatement
          exact hop rfl
      | _ => cases hstatement
  | created _ payload hcreate huser hturn =>
      have hid := h.id turnId row hrow
      omega

/-- An active row that is finalised. -/
theorem World.finalizeOnce_row {status : TerminalStatus} {errorCode errorDetail : Option String}
    (hrow : world.turns turnId = some row) (hactive : row.status.isActive = true) :
    (world.perform self lost (.finalizeOnce turnId status errorCode errorDetail)).1 = true ∧
      ∃ after, (world.perform self lost
        (.finalizeOnce turnId status errorCode errorDetail)).2.turns turnId = some after ∧
        after.status = status.val ∧ after.assistantMessageId = row.assistantMessageId := by
  have hopen : row.status.isTerminal = false := by simpa using hactive
  simp [World.perform, World.updateTurn, hrow, TurnRow.finalizeOnce, hopen]

/-! ### Turns that have been handed out -/

theorem World.Effect.queue (h : world.Effect self op after) :
    (after.queue = world.queue ∧ after.enqueued = world.enqueued) ∨
      ∃ turnId, op = .enqueue turnId ∧
        after.queue = Function.update world.queue turnId true ∧
        after.enqueued = Function.update world.enqueued turnId true := by
  cases h with
  | enqueued turnId hop => exact .inr ⟨turnId, hop, rfl, rfl⟩
  | _ => exact .inl ⟨rfl, rfl⟩

/-- The row that an insertion answers with is in the table. -/
theorem World.createTurn_row {payload : TurnCreate} {created : TurnRow}
    (h : (world.createTurn self payload).1 = some created) :
    created.id = world.lastTurnId + 1 ∧
      (world.createTurn self payload).2.turns created.id = some created := by
  unfold World.createTurn at h ⊢
  split at h
  · cases h
  · rename_i hfree
    simp only [hfree, if_false]
    cases h
    exact ⟨rfl, Function.update_self ..⟩

/-- A turn that is in the queue, or was ever put there, or is executed, or has just been created, has
a row. -/
structure Cluster.Rowed (cluster : Cluster) : Prop where
  queue : ∀ turnId, cluster.world.queue turnId = true → (cluster.world.turns turnId).isSome
  enqueued : ∀ turnId, cluster.world.enqueued turnId = true → (cluster.world.turns turnId).isSome
  executions : cluster.Records fun world _ cfg _ => (world.turns cfg.turnId).isSome
  created : cluster.ControlRecords fun world _ _ history =>
    ∀ turnId, history.created = some turnId → (world.turns turnId).isSome

theorem Cluster.Steps.row_isSome (hsteps : cluster.Steps action next) (h : cluster.world.Timed)
    (hrow : (cluster.world.turns turnId).isSome) : (next.world.turns turnId).isSome := by
  obtain ⟨row, hrow⟩ := Option.isSome_iff_exists.mp hrow
  obtain ⟨after, hafter, _⟩ := hsteps.row_leads h hrow
  exact Option.isSome_iff_exists.mpr ⟨after, hafter⟩

/-- What is enqueued has been created by the handler that enqueues it. -/
theorem Cluster.Rowed.enqueues (h : cluster.Rowed) (hconforms : cluster.Conforms)
    (hop : cluster.op action = some (.enqueue turnId)) : (cluster.world.turns turnId).isSome := by
  cases hconforms.actor hop with
  | execution id raised hexecution hallowed => exact hallowed.elim
  | heartbeat id raised hexecution hheartbeat hbeat =>
      unfold Heartbeat.op at hbeat
      split at hbeat <;> cases hbeat
  | control id raised hcontrol hallowed => exact h.created id _ hcontrol turnId hallowed

/-- The queue after a step. -/
theorem Cluster.Steps.queue (hsteps : cluster.Steps action next) (h : cluster.Rowed)
    (hconforms : cluster.Conforms) {turnId : Nat}
    (hqueue : next.world.queue turnId = true ∨ next.world.enqueued turnId = true) :
    (cluster.world.turns turnId).isSome := by
  have hperformed : ∀ (self : Nat) (lost : Bool) (op : Op), cluster.op action = some op →
      ((cluster.world.perform self lost op).2.queue turnId = true ∨
        (cluster.world.perform self lost op).2.enqueued turnId = true) →
      (cluster.world.turns turnId).isSome := by
    intro self lost op hop hafter
    rcases (perform_effect cluster.world self lost op).queue with
      ⟨hkept, hkept'⟩ | ⟨target, rfl, hput, hput'⟩
    · rw [hkept, hkept'] at hafter
      exact hafter.elim (h.queue turnId) (h.enqueued turnId)
    · by_cases htarget : turnId = target
      · subst htarget
        exact h.enqueues hconforms hop
      · rw [hput, hput', Function.update_of_ne htarget, Function.update_of_ne htarget] at hafter
        exact hafter.elim (h.queue turnId) (h.enqueued turnId)
  cases hsteps with
  | tick | spawn | notice => exact hqueue.elim (h.queue turnId) (h.enqueued turnId)
  | deliver cfg again hdelivery =>
      by_cases hturn : turnId = cfg.turnId
      · subst hturn
        exact h.queue _ hdelivery
      · simp only [Function.update_of_ne hturn] at hqueue
        exact hqueue.elim (h.queue turnId) (h.enqueued turnId)
  | redeliver target henqueued =>
      by_cases hturn : turnId = target
      · subst hturn
        exact h.enqueued _ henqueued
      · simp only [Function.update_of_ne hturn] at hqueue
        exact hqueue.elim (h.queue turnId) (h.enqueued turnId)
  | @advance id raised execution after op world hexecution hawaits =>
      cases hawaits with
      | answered rest hprogram =>
          refine hperformed id _ op ?_ hqueue
          simp [Cluster.op, hexecution, hprogram, Thread.op]
      | raised => exact hqueue.elim (h.queue turnId) (h.enqueued turnId)
  | @beat id raised execution heartbeat hexecution hheartbeat =>
      rcases heartbeat.await_world cluster.world id raised with hkept | ⟨op, hop, _, hworld⟩
      · simp only [hkept] at hqueue
        exact hqueue.elim (h.queue turnId) (h.enqueued turnId)
      · simp only [hworld] at hqueue
        refine hperformed id false op ?_ hqueue
        simp [Cluster.op, hexecution, hheartbeat, hop]
  | @control id raised control after op world hcontrol hawaits =>
      cases hawaits with
      | answered rest hprogram =>
          refine hperformed id false op ?_ hqueue
          simp [Cluster.op, hcontrol, hprogram, Thread.op]
      | raised => exact hqueue.elim (h.queue turnId) (h.enqueued turnId)
  | crash holder =>
      rcases hqueue with hqueue | hqueue
      · simp only [Cluster.crash, Bool.or_eq_true, List.any_eq_true, Bool.and_eq_true,
          decide_eq_true_eq] at hqueue
        rcases hqueue with hqueue | ⟨execution, hmem, ⟨rfl, _⟩, _⟩
        · exact h.queue turnId hqueue
        · obtain ⟨id, hexecution⟩ := List.mem_iff_getElem?.mp hmem
          exact h.executions id execution hexecution
      · exact h.enqueued turnId hqueue
  | quit | miss => exact hqueue.elim (h.queue turnId) (h.enqueued turnId)

theorem Cluster.Rowed.step (h : cluster.Rowed) (hconforms : cluster.Conforms)
    (htimed : cluster.world.Timed) (hsteps : cluster.Steps action next) : next.Rowed where
  queue turnId hqueue := hsteps.row_isSome htimed (hsteps.queue h hconforms (.inl hqueue))
  enqueued turnId hqueue := hsteps.row_isSome htimed (hsteps.queue h hconforms (.inr hqueue))
  executions := by
    refine h.executions.step hsteps (fun cfg hqueue => ?_) ?_ ?_
    · exact hsteps.row_isSome htimed (h.queue _ hqueue)
    · exact fun _ _ _ _ hrow => hsteps.row_isSome htimed hrow
    · intro _ execution after op raised _ _ hawaits hrow
      rw [hawaits.cfg_eq]
      exact hsteps.row_isSome htimed hrow
  created := by
    refine h.created.step hsteps (fun _ _ _ _ => nofun) ?_ ?_
    · exact fun _ _ _ _ hrow turnId hcreated => hsteps.row_isSome htimed (hrow turnId hcreated)
    · intro _ control after op raised _ _ hawaits hrow turnId hcreated
      generalize hnext : next.world = world at hawaits ⊢
      have hkept : ∀ turnId, control.history.created = some turnId →
          (world.turns turnId).isSome := fun turnId hcreated =>
        hnext ▸ hsteps.row_isSome htimed (hrow turnId hcreated)
      cases hawaits with
      | answered rest hprogram =>
          cases op with
          | createTurn payload =>
              obtain ⟨row, hanswer, rfl⟩ := Option.map_eq_some_iff.mp hcreated
              exact Option.isSome_iff_exists.mpr ⟨row, (World.createTurn_row hanswer).2⟩
          | enqueue => cases hcreated
          | _ => exact hkept turnId hcreated
      | raised => exact hkept turnId hcreated

theorem reach_rowed {Allowed : Cluster → ClusterAction → Prop} {users : Nat → Bool}
    (hreach : Reach Cluster.step Allowed (Cluster.init users) cluster) : cluster.Rowed := by
  refine hreach.invariant_with Cluster.Rowed
    (fun hbefore => And.intro (reach_conforms hbefore) (reach_timed hbefore)) ?_
    fun _ _ _ hknown h _ hstep => h.step hknown.1 hknown.2 (Cluster.steps_of_step hstep)
  exact ⟨fun _ => nofun, fun _ => nofun, fun _ _ hexecution => by simp [Cluster.init] at hexecution,
    fun _ _ hcontrol => by simp [Cluster.init] at hcontrol⟩

end
end CodexServer
