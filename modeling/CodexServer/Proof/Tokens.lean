import CodexServer.Proof.Runs

/-!
# What a token identifies

The chat lock holds the id of a turn and the lease the id of a worker process. A key that holds the
token of an execution was taken by an execution of the same turn, the lease by one of the same turn
in the same process, and more its check cannot tell: the executions of a redelivered turn share
their tokens.
-/

open Transition

namespace CodexServer

namespace Cluster

variable (cluster : Cluster)

/-- The chat lock is there, and an execution of the turn took it. -/
def LockTaken (chatId turnId : Nat) : Prop :=
  ∃ entry writer, cluster.world.active chatId = some entry ∧
    cluster.executions[entry.owner]? = some writer ∧ writer.turnId = turnId

/-- The lease is there, and an execution of the turn in this process took it. -/
def LeaseTaken (turnId holder : Nat) : Prop :=
  ∃ entry writer, cluster.world.lease turnId = some entry ∧
    cluster.executions[entry.owner]? = some writer ∧ writer.turnId = turnId ∧
    writer.cfg.holder = holder

def heartbeat (id : Nat) : Option Heartbeat := cluster.executions[id]?.bind Execution.heartbeat

/-- The heartbeat of the execution is at this check and passes it. -/
def passes (id : Nat) (point : HeartbeatPoint) : Bool :=
  (cluster.heartbeat id).any (fun heartbeat => heartbeat.point = point) &&
    ((cluster.step (.beat id none)).bind fun next => next.heartbeat id).any fun heartbeat =>
      heartbeat.point ≠ .stopped

/-- Every token is the one of the execution that took the key. -/
structure Tokens : Prop where
  active : ∀ chatId entry, cluster.world.active chatId = some entry →
    ∃ writer, cluster.executions[entry.owner]? = some writer ∧ writer.turnId = entry.value
  lease : ∀ turnId entry, cluster.world.lease turnId = some entry →
    ∃ writer, cluster.executions[entry.owner]? = some writer ∧ writer.turnId = turnId ∧
      writer.cfg.holder = entry.value

end Cluster

/-! ### The keys after an operation -/

section

variable {world after : World} {self : Nat} {op : Op}

theorem World.Effect.active (h : world.Effect self op after) :
    after.active = world.active ∨ ∃ command, op.activeCommand = some command ∧
      after.active = (command.run world.active (world.now + lockTtl) self).2 := by
  cases h with
  | locked command hcommand => exact .inr ⟨command, hcommand, rfl⟩
  | _ => exact .inl rfl

theorem World.Effect.lease (h : world.Effect self op after) :
    after.lease = world.lease ∨ ∃ command, op.leaseCommand = some command ∧
      after.lease = (command.run world.lease (world.now + lockTtl) self).2 := by
  cases h with
  | leased command hcommand => exact .inr ⟨command, hcommand, rfl⟩
  | _ => exact .inl rfl

end

section

variable {cluster next : Cluster} {action : ClusterAction} {op : Op} {id : Nat}

/-- Who may take the lock of a chat, and with which token. -/
theorem Cluster.Conforms.takes_lock (h : cluster.Conforms) {chatId turnId : Nat}
    (hop : cluster.op action = some (.setActiveNx chatId turnId)) :
    ∃ id raised execution, action = .advance id raised ∧
      cluster.executions[id]? = some execution ∧ execution.turnId = turnId := by
  cases h.actor hop with
  | execution id raised hexecution hallowed => exact ⟨id, raised, _, rfl, hexecution, hallowed.symm⟩
  | heartbeat id raised hexecution hheartbeat hbeat =>
      unfold Heartbeat.op at hbeat
      split at hbeat <;> cases hbeat
  | control id raised hcontrol hallowed => exact hallowed.elim

/-- Who may take the lease of a turn, and with which token. -/
theorem Cluster.Conforms.takes_lease (h : cluster.Conforms) {turnId holder : Nat}
    (hop : cluster.op action = some (.setLeaseNx turnId holder)) :
    ∃ id raised execution, action = .advance id raised ∧
      cluster.executions[id]? = some execution ∧ execution.turnId = turnId ∧
      execution.cfg.holder = holder := by
  cases h.actor hop with
  | execution id raised hexecution hallowed =>
      exact ⟨id, raised, _, rfl, hexecution, hallowed.1.symm, hallowed.2.1.symm⟩
  | heartbeat id raised hexecution hheartbeat hbeat =>
      unfold Heartbeat.op at hbeat
      split at hbeat <;> cases hbeat
  | control id raised hcontrol hallowed => exact hallowed.elim

theorem Op.activeCommand_setNx {key value : Nat} (h : op.activeCommand = some (.setNx key value)) :
    op = .setActiveNx key value := by
  cases op with
  | setActiveNx chatId turnId =>
      cases h
      rfl
  | _ => cases h

theorem Op.leaseCommand_setNx {key value : Nat} (h : op.leaseCommand = some (.setNx key value)) :
    op = .setLeaseNx key value := by
  cases op with
  | setLeaseNx turnId holder =>
      cases h
      rfl
  | _ => cases h

/-! ### The tokens along a run -/

/-- Where the entry of a chat lock comes from in a step. -/
theorem Cluster.Steps.active_origin (h : cluster.Steps action next) (hconforms : cluster.Conforms)
    {chatId : Nat} {entry : StoreEntry Nat Nat} (hentry : next.world.active chatId = some entry) :
    (∃ before, cluster.world.active chatId = some before ∧ before.value = entry.value ∧
        before.owner = entry.owner) ∨
      ∃ execution, cluster.executions[entry.owner]? = some execution ∧
        execution.turnId = entry.value := by
  generalize hworld : next.world = world at hentry
  have hshared := h.shared
  rw [hworld] at hshared
  cases hshared with
  | tick =>
      obtain ⟨hbefore, _⟩ := ExpiringStore.expire_eq_some.mp hentry
      exact .inl ⟨entry, hbefore, rfl, rfl⟩
  | bookkeeping => exact .inl ⟨entry, hentry, rfl, rfl⟩
  | performed self lost op hop hraised hself =>
      rcases (perform_effect cluster.world self lost op).active with hkept | ⟨command, hcommand, hrun⟩
      · rw [hkept] at hentry
        exact .inl ⟨entry, hentry, rfl, rfl⟩
      · rw [hrun] at hentry
        rcases StoreCommand.run_eq_some _ _ _ _ hentry with hbefore | ⟨rfl, howner⟩
        · exact .inl hbefore
        · obtain rfl := Op.activeCommand_setNx hcommand
          obtain ⟨id, raised, execution, haction, hexecution, hturn⟩ := hconforms.takes_lock hop
          obtain rfl := hself id raised haction
          exact .inr ⟨execution, howner ▸ hexecution, hturn⟩

/-- Where the entry of a lease comes from in a step. -/
theorem Cluster.Steps.lease_origin (h : cluster.Steps action next) (hconforms : cluster.Conforms)
    {turnId : Nat} {entry : StoreEntry Nat Nat} (hentry : next.world.lease turnId = some entry) :
    (∃ before, cluster.world.lease turnId = some before ∧ before.value = entry.value ∧
        before.owner = entry.owner) ∨
      ∃ execution, cluster.executions[entry.owner]? = some execution ∧
        execution.turnId = turnId ∧ execution.cfg.holder = entry.value := by
  generalize hworld : next.world = world at hentry
  have hshared := h.shared
  rw [hworld] at hshared
  cases hshared with
  | tick =>
      obtain ⟨hbefore, _⟩ := ExpiringStore.expire_eq_some.mp hentry
      exact .inl ⟨entry, hbefore, rfl, rfl⟩
  | bookkeeping => exact .inl ⟨entry, hentry, rfl, rfl⟩
  | performed self lost op hop hraised hself =>
      rcases (perform_effect cluster.world self lost op).lease with hkept | ⟨command, hcommand, hrun⟩
      · rw [hkept] at hentry
        exact .inl ⟨entry, hentry, rfl, rfl⟩
      · rw [hrun] at hentry
        rcases StoreCommand.run_eq_some _ _ _ _ hentry with hbefore | ⟨rfl, howner⟩
        · exact .inl hbefore
        · obtain rfl := Op.leaseCommand_setNx hcommand
          obtain ⟨id, raised, execution, haction, hexecution, hturn, hholder⟩ :=
            hconforms.takes_lease hop
          obtain rfl := hself id raised haction
          exact .inr ⟨execution, howner ▸ hexecution, hturn, hholder⟩

theorem Cluster.Tokens.step (h : cluster.Tokens) (hconforms : cluster.Conforms)
    (hsteps : cluster.Steps action next) : next.Tokens where
  active chatId entry hentry := by
    obtain ⟨writer, hwriter, hturn⟩ : ∃ writer,
        cluster.executions[entry.owner]? = some writer ∧ writer.turnId = entry.value := by
      rcases hsteps.active_origin hconforms hentry with ⟨before, hbefore, hvalue, howner⟩ | hnew
      · obtain ⟨writer, hwriter, hturn⟩ := h.active chatId before hbefore
        exact ⟨writer, howner ▸ hwriter, hturn.trans hvalue⟩
      · exact hnew
    obtain ⟨after, hafter, hcfg⟩ := hsteps.cfg_kept hwriter
    exact ⟨after, hafter, (congrArg ExecConfig.turnId hcfg).trans hturn⟩
  lease turnId entry hentry := by
    obtain ⟨writer, hwriter, hturn, hholder⟩ : ∃ writer,
        cluster.executions[entry.owner]? = some writer ∧ writer.turnId = turnId ∧
          writer.cfg.holder = entry.value := by
      rcases hsteps.lease_origin hconforms hentry with ⟨before, hbefore, hvalue, howner⟩ | hnew
      · obtain ⟨writer, hwriter, hturn, hholder⟩ := h.lease turnId before hbefore
        exact ⟨writer, howner ▸ hwriter, hturn, hholder.trans hvalue⟩
      · exact hnew
    obtain ⟨after, hafter, hcfg⟩ := hsteps.cfg_kept hwriter
    exact ⟨after, hafter, (congrArg ExecConfig.turnId hcfg).trans hturn,
      (congrArg ExecConfig.holder hcfg).trans hholder⟩

theorem reach_tokens {Allowed : Cluster → ClusterAction → Prop} {users : Nat → Bool}
    (hreach : Reach Cluster.step Allowed (Cluster.init users) cluster) : cluster.Tokens := by
  refine hreach.invariant_with Cluster.Tokens reach_conforms ?_ fun _ _ _ hconforms h _ hstep =>
    h.step hconforms (Cluster.steps_of_step hstep)
  exact ⟨fun _ _ => nofun, fun _ _ => nofun⟩

/-! ### Checks and releases -/

/-- The thread of a step is this execution, or its heartbeat. -/
def ClusterAction.isOf (id : Nat) : ClusterAction → Bool
  | advance other _ | beat other _ => other = id
  | tick | deliver .. | redeliver _ | spawn _ | control .. | crash _ | quit _ | miss .. => false

/-- What an execution prolongs or deletes is a lock with its turn for a token. -/
theorem Cluster.Conforms.changes_lock (h : cluster.Conforms) {execution : Execution}
    (hexecution : cluster.executions[id]? = some execution) (haction : action.isOf id = true)
    (hop : cluster.op action = some op) {chatId turnId : Nat}
    (hcommand : op.activeCommand = some (.touchIfEq chatId turnId) ∨
      op.activeCommand = some (.delIfEq chatId turnId)) : turnId = execution.turnId := by
  cases h.actor hop with
  | execution other raised hother hallowed =>
      obtain rfl := of_decide_eq_true haction
      obtain rfl := Option.some.inj (hexecution.symm.trans hother)
      cases op with
      | setActiveIfEq => exact hallowed.elim
      | delActiveIfEq =>
          rcases hcommand with hcommand | hcommand <;> cases hcommand
          exact hallowed
      | _ => rcases hcommand with hcommand | hcommand <;> cases hcommand
  | heartbeat other raised hother hheartbeat hbeat hturn hholder =>
      obtain rfl := of_decide_eq_true haction
      obtain rfl := Option.some.inj (hexecution.symm.trans hother)
      unfold Heartbeat.op at hbeat
      split at hbeat <;> cases hbeat <;> rcases hcommand with hcommand | hcommand <;>
        cases hcommand
      exact hturn
  | control other raised hcontrol hallowed => cases haction

/-- What an execution prolongs or deletes is the lease of its turn with its process for a token. -/
theorem Cluster.Conforms.changes_lease (h : cluster.Conforms) {execution : Execution}
    (hexecution : cluster.executions[id]? = some execution) (haction : action.isOf id = true)
    (hop : cluster.op action = some op) {turnId holder : Nat}
    (hcommand : op.leaseCommand = some (.touchIfEq turnId holder) ∨
      op.leaseCommand = some (.delIfEq turnId holder)) :
    turnId = execution.turnId ∧ holder = execution.cfg.holder := by
  cases h.actor hop with
  | execution other raised hother hallowed =>
      obtain rfl := of_decide_eq_true haction
      obtain rfl := Option.some.inj (hexecution.symm.trans hother)
      cases op with
      | refreshLease => exact hallowed.elim
      | releaseLease =>
          rcases hcommand with hcommand | hcommand <;> cases hcommand
          have hsound := (h.executions execution (List.mem_of_getElem? hexecution)).sound
          exact ⟨hallowed.1, hsound.holder holder hallowed.2.1⟩
      | _ => rcases hcommand with hcommand | hcommand <;> cases hcommand
  | heartbeat other raised hother hheartbeat hbeat hturn hholder =>
      obtain rfl := of_decide_eq_true haction
      obtain rfl := Option.some.inj (hexecution.symm.trans hother)
      unfold Heartbeat.op at hbeat
      split at hbeat <;> cases hbeat <;> rcases hcommand with hcommand | hcommand <;>
        cases hcommand
      exact ⟨hturn, hholder⟩
  | control other raised hcontrol hallowed => cases haction

/-- The keys after a step of a thread. -/
theorem Cluster.Steps.keys (h : cluster.Steps action next) (haction : action.isOf id = true) :
    (next.world.active = cluster.world.active ∧ next.world.lease = cluster.world.lease) ∨
      ∃ self op, cluster.op action = some op ∧ cluster.world.Effect self op next.world := by
  generalize hworld : next.world = world
  have hshared := h.shared
  rw [hworld] at hshared
  cases hshared with
  | tick => cases haction
  | performed self lost op hop => exact .inr ⟨self, op, hop, perform_effect _ _ _ _⟩
  | bookkeeping => exact .inl ⟨rfl, rfl⟩

/-- **A lock is prolonged and deleted by executions of the turn that took it.** -/
theorem Cluster.Tokens.lock_changed (h : cluster.Tokens) (hconforms : cluster.Conforms)
    (hsteps : cluster.Steps action next) {execution : Execution}
    (hexecution : cluster.executions[id]? = some execution) (haction : action.isOf id = true)
    {chatId : Nat} {entry : StoreEntry Nat Nat}
    (hentry : cluster.world.active chatId = some entry)
    (hchanged : next.world.active chatId ≠ some entry) :
    cluster.LockTaken chatId execution.turnId := by
  obtain ⟨writer, hwriter, hturn⟩ := h.active chatId entry hentry
  refine ⟨entry, writer, hentry, hwriter, hturn.trans ?_⟩
  rcases hsteps.keys haction with ⟨hkept, _⟩ | ⟨self, op, hop, heffect⟩
  · exact absurd (hkept ▸ hentry) hchanged
  · rcases heffect.active with hkept | ⟨command, hcommand, hrun⟩
    · exact absurd (hkept ▸ hentry) hchanged
    · rw [hrun] at hchanged
      have hown := StoreCommand.run_changed _ _ _ _ hentry hchanged
      exact hconforms.changes_lock hexecution haction hop
        (hown.imp (hcommand.trans <| congrArg _ ·) (hcommand.trans <| congrArg _ ·))

/-- **A lease is prolonged and deleted by executions of the turn and the process that took it.** -/
theorem Cluster.Tokens.lease_changed (h : cluster.Tokens) (hconforms : cluster.Conforms)
    (hsteps : cluster.Steps action next) {execution : Execution}
    (hexecution : cluster.executions[id]? = some execution) (haction : action.isOf id = true)
    {turnId : Nat} {entry : StoreEntry Nat Nat}
    (hentry : cluster.world.lease turnId = some entry)
    (hchanged : next.world.lease turnId ≠ some entry) :
    turnId = execution.turnId ∧ cluster.LeaseTaken execution.turnId execution.cfg.holder := by
  rcases hsteps.keys haction with ⟨_, hkept⟩ | ⟨self, op, hop, heffect⟩
  · exact absurd (hkept ▸ hentry) hchanged
  · rcases heffect.lease with hkept | ⟨command, hcommand, hrun⟩
    · exact absurd (hkept ▸ hentry) hchanged
    · rw [hrun] at hchanged
      have hown := StoreCommand.run_changed _ _ _ _ hentry hchanged
      obtain ⟨rfl, hvalue⟩ := hconforms.changes_lease hexecution haction hop
        (hown.imp (hcommand.trans <| congrArg _ ·) (hcommand.trans <| congrArg _ ·))
      obtain ⟨writer, hwriter, hturn, hholder⟩ := h.lease _ entry hentry
      exact ⟨rfl, entry, writer, hentry, hwriter, hturn, hholder.trans hvalue⟩

/-- A check of a heartbeat, answered. -/
theorem Cluster.step_beat {execution : Execution} {heartbeat : Heartbeat}
    (hexecution : cluster.executions[id]? = some execution)
    (hheartbeat : execution.heartbeat = some heartbeat) (hrunning : execution.running = true)
    (hpoint : heartbeat.point ≠ .stopped) :
    ∃ next, cluster.step (.beat id none) = some next ∧
      next.heartbeat id = some (heartbeat.next (heartbeat.await cluster.world id none).1) := by
  obtain ⟨hid, _⟩ := List.getElem?_eq_some_iff.mp hexecution
  refine ⟨{ cluster with
    world := (heartbeat.await cluster.world id none).2
    executions := cluster.executions.set id { execution with
      heartbeat := some (heartbeat.next (heartbeat.await cluster.world id none).1) } }, ?_, ?_⟩
  · simp [Cluster.step, hexecution, Execution.beat, hheartbeat, hrunning, hpoint]
  · simp [Cluster.heartbeat, List.getElem?_set_self hid]

theorem Cluster.passes_iff {execution : Execution} {heartbeat : Heartbeat}
    (hexecution : cluster.executions[id]? = some execution)
    (hheartbeat : execution.heartbeat = some heartbeat) (hrunning : execution.running = true)
    (hpoint : heartbeat.point ≠ .stopped) :
    cluster.passes id heartbeat.point = true ↔
      (heartbeat.next (heartbeat.await cluster.world id none).1).point ≠ .stopped := by
  obtain ⟨next, hstep, hnext⟩ := Cluster.step_beat hexecution hheartbeat hrunning hpoint
  have hself : cluster.heartbeat id = some heartbeat := by
    simp [Cluster.heartbeat, hexecution, hheartbeat]
  simp [Cluster.passes, hstep, hnext, hself]

theorem Cluster.heartbeat_beat {execution : Execution} {heartbeat : Heartbeat}
    (hexecution : cluster.executions[id]? = some execution)
    (hheartbeat : execution.heartbeat = some heartbeat)
    (hstep : cluster.step (.beat id none) = some next) :
    execution.running = true ∧
      next.heartbeat id = some (heartbeat.next (heartbeat.await cluster.world id none).1) := by
  obtain ⟨hid, _⟩ := List.getElem?_eq_some_iff.mp hexecution
  cases Cluster.steps_of_step hstep with
  | beat _ _ hother hbeat hrunning =>
      obtain rfl := Option.some.inj (hexecution.symm.trans hother)
      obtain rfl := Option.some.inj (hheartbeat.symm.trans hbeat)
      exact ⟨hrunning, by simp [Cluster.heartbeat, List.getElem?_set_self hid]⟩

/-- A check goes on when the command answers `True`. -/
theorem Heartbeat.next_check (heartbeat : Heartbeat) (answer : Bool)
    (hpoint : heartbeat.point = .lock ∨ heartbeat.point = .lease) :
    (heartbeat.next (.ok answer)).point ≠ .stopped ↔ answer = true := by
  rcases hpoint with hpoint | hpoint <;> cases answer <;>
    simp [Heartbeat.next, Heartbeat.lose, hpoint]

/-- Otherwise the event is set. -/
theorem Heartbeat.next_refused (heartbeat : Heartbeat) {answer : Bool}
    (hpoint : heartbeat.point = .lock ∨ heartbeat.point = .lease) (hanswer : ¬ answer = true) :
    (heartbeat.next (.ok answer)).point = .stopped ∧
      (heartbeat.next (.ok answer)).ownershipLost = true := by
  rw [Bool.not_eq_true] at hanswer
  subst hanswer
  rcases hpoint with hpoint | hpoint <;> simp [Heartbeat.next, Heartbeat.lose, hpoint]

theorem Heartbeat.await_lock {heartbeat : Heartbeat} {world : World}
    (hpoint : heartbeat.point = .lock) : (heartbeat.await world id none).1 =
      .ok (world.active.holds heartbeat.chatId heartbeat.turnId) := by
  unfold Heartbeat.await
  rw [hpoint]
  exact congrArg Except.ok (ExpiringStore.touchIfEq_fst _)

theorem Heartbeat.await_lease {heartbeat : Heartbeat} {world : World}
    (hpoint : heartbeat.point = .lease) : (heartbeat.await world id none).1 =
      .ok (world.lease.holds heartbeat.turnId heartbeat.holder) := by
  unfold Heartbeat.await
  rw [hpoint]
  exact congrArg Except.ok (ExpiringStore.touchIfEq_fst _)

theorem Cluster.Tokens.holds_lock (h : cluster.Tokens) (chatId turnId : Nat) :
    cluster.world.active.holds chatId turnId = true ↔ cluster.LockTaken chatId turnId := by
  rw [ExpiringStore.holds_iff]
  constructor
  · rintro ⟨entry, hentry, hvalue⟩
    obtain ⟨writer, hwriter, hturn⟩ := h.active chatId entry hentry
    exact ⟨entry, writer, hentry, hwriter, hturn.trans hvalue⟩
  · rintro ⟨entry, writer, hentry, hwriter, hturn⟩
    obtain ⟨other, hother, hvalue⟩ := h.active chatId entry hentry
    obtain rfl := Option.some.inj (hwriter.symm.trans hother)
    exact ⟨entry, hentry, hvalue.symm.trans hturn⟩

theorem Cluster.Tokens.holds_lease (h : cluster.Tokens) (turnId holder : Nat) :
    cluster.world.lease.holds turnId holder = true ↔ cluster.LeaseTaken turnId holder := by
  rw [ExpiringStore.holds_iff]
  constructor
  · rintro ⟨entry, hentry, hvalue⟩
    obtain ⟨writer, hwriter, hturn, hholder⟩ := h.lease turnId entry hentry
    exact ⟨entry, writer, hentry, hwriter, hturn, hholder.trans hvalue⟩
  · rintro ⟨entry, writer, hentry, hwriter, hturn, hholder⟩
    obtain ⟨other, hother, _, hvalue⟩ := h.lease turnId entry hentry
    obtain rfl := Option.some.inj (hwriter.symm.trans hother)
    exact ⟨entry, hentry, hvalue.symm.trans hholder⟩

/-- What the checks and the releases of an execution tell. -/
structure Cluster.Identifies (cluster : Cluster) (id : Nat) (execution : Execution) : Prop where
  /-- `heartbeat_active` -/
  lockChecked : ∀ heartbeat, execution.heartbeat = some heartbeat → heartbeat.point = .lock →
    execution.running = true →
    (cluster.passes id .lock = true ↔ cluster.LockTaken heartbeat.chatId execution.turnId)
  /-- `lease.refresh` -/
  leaseChecked : ∀ heartbeat, execution.heartbeat = some heartbeat → heartbeat.point = .lease →
    execution.running = true →
    (cluster.passes id .lease = true ↔ cluster.LeaseTaken execution.turnId execution.cfg.holder)
  /-- The next check after a loss detects it. -/
  detected : ∀ heartbeat next, execution.heartbeat = some heartbeat →
    (heartbeat.point = .lock ∧ ¬ cluster.LockTaken heartbeat.chatId execution.turnId ∨
      heartbeat.point = .lease ∧ ¬ cluster.LeaseTaken execution.turnId execution.cfg.holder) →
    cluster.step (.beat id none) = some next →
    ∃ later, next.heartbeat id = some later ∧ later.point = .stopped ∧ later.ownershipLost = true
  lockChanged : ∀ action next chatId entry, action.isOf id = true →
    cluster.step action = some next → cluster.world.active chatId = some entry →
    next.world.active chatId ≠ some entry → cluster.LockTaken chatId execution.turnId
  leaseChanged : ∀ action next turnId entry, action.isOf id = true →
    cluster.step action = some next → cluster.world.lease turnId = some entry →
    next.world.lease turnId ≠ some entry →
    turnId = execution.turnId ∧ cluster.LeaseTaken execution.turnId execution.cfg.holder

theorem Cluster.LeaseTaken.holder_unique {turnId holder other : Nat}
    (h : cluster.LeaseTaken turnId holder) (hother : cluster.LeaseTaken turnId other) :
    holder = other := by
  obtain ⟨entry, writer, hentry, hwriter, _, rfl⟩ := h
  obtain ⟨entry', writer', hentry', hwriter', _, rfl⟩ := hother
  obtain rfl := Option.some.inj (hentry.symm.trans hentry')
  obtain rfl := Option.some.inj (hwriter.symm.trans hwriter')
  rfl

theorem Cluster.passes_running {execution : Execution} {point : HeartbeatPoint}
    (hexecution : cluster.executions[id]? = some execution)
    (hpasses : cluster.passes id point = true) :
    ∃ heartbeat, execution.heartbeat = some heartbeat ∧ heartbeat.point = point ∧
      execution.running = true := by
  simp only [Cluster.passes, Cluster.heartbeat, hexecution, Option.bind_some, Bool.and_eq_true,
    Option.any_eq_true, Option.bind_eq_some_iff] at hpasses
  obtain ⟨⟨heartbeat, hheartbeat, hpoint⟩, _, ⟨next, hstep, _⟩, _⟩ := hpasses
  exact ⟨heartbeat, hheartbeat, of_decide_eq_true hpoint,
    (Cluster.heartbeat_beat hexecution hheartbeat hstep).1⟩

theorem Cluster.Tokens.identifies (h : cluster.Tokens) (hconforms : cluster.Conforms)
    {execution : Execution} (hexecution : cluster.executions[id]? = some execution) :
    cluster.Identifies id execution := by
  have hown := (hconforms.executions execution (List.mem_of_getElem? hexecution)).heartbeat
  have hlock : ∀ heartbeat, execution.heartbeat = some heartbeat →
      (cluster.world.active.holds heartbeat.chatId heartbeat.turnId = true ↔
        cluster.LockTaken heartbeat.chatId execution.turnId) := fun heartbeat hheartbeat => by
    rw [h.holds_lock, (hown heartbeat hheartbeat).1]
  have hlease : ∀ heartbeat, execution.heartbeat = some heartbeat →
      (cluster.world.lease.holds heartbeat.turnId heartbeat.holder = true ↔
        cluster.LeaseTaken execution.turnId execution.cfg.holder) := fun heartbeat hheartbeat => by
    rw [h.holds_lease, (hown heartbeat hheartbeat).1, (hown heartbeat hheartbeat).2]
  refine ⟨?_, ?_, ?_, ?_, ?_⟩
  · intro heartbeat hheartbeat hpoint hrunning
    rw [← hlock heartbeat hheartbeat, ← hpoint,
      Cluster.passes_iff hexecution hheartbeat hrunning (by simp [hpoint]),
      Heartbeat.await_lock hpoint]
    exact heartbeat.next_check _ (.inl hpoint)
  · intro heartbeat hheartbeat hpoint hrunning
    rw [← hlease heartbeat hheartbeat, ← hpoint,
      Cluster.passes_iff hexecution hheartbeat hrunning (by simp [hpoint]),
      Heartbeat.await_lease hpoint]
    exact heartbeat.next_check _ (.inr hpoint)
  · intro heartbeat next hheartbeat hlost hstep
    refine ⟨_, (Cluster.heartbeat_beat hexecution hheartbeat hstep).2, ?_⟩
    rcases hlost with ⟨hpoint, hlost⟩ | ⟨hpoint, hlost⟩
    · rw [← hlock heartbeat hheartbeat] at hlost
      rw [Heartbeat.await_lock hpoint]
      exact heartbeat.next_refused (.inl hpoint) hlost
    · rw [← hlease heartbeat hheartbeat] at hlost
      rw [Heartbeat.await_lease hpoint]
      exact heartbeat.next_refused (.inr hpoint) hlost
  · intro action next chatId entry haction hstep hentry hchanged
    exact h.lock_changed hconforms (Cluster.steps_of_step hstep) hexecution haction hentry hchanged
  · intro action next turnId entry haction hstep hentry hchanged
    exact h.lease_changed hconforms (Cluster.steps_of_step hstep) hexecution haction hentry
      hchanged

/-- **What the tokens identify.** In every state of a run a check is passed, and a key prolonged or
deleted, just if an execution of the same turn took it, and for a lease one in the same process; and
executions of one turn in two processes do not both pass the check of its lease. -/
theorem tokens_identify {users : Nat → Bool}
    (hreach : Reach Cluster.step (fun _ _ => True) (Cluster.init users) cluster) :
    (∀ (id : Nat) execution, cluster.executions[id]? = some execution →
      cluster.Identifies id execution) ∧
    ∀ (id other : Nat) first second, cluster.executions[id]? = some first →
      cluster.executions[other]? = some second → first.turnId = second.turnId →
      cluster.passes id .lease = true → cluster.passes other .lease = true →
      first.cfg.holder = second.cfg.holder := by
  have hidentifies : ∀ (id : Nat) execution, cluster.executions[id]? = some execution →
      cluster.Identifies id execution := fun id execution hexecution =>
    (reach_tokens hreach).identifies (reach_conforms hreach) hexecution
  refine ⟨hidentifies, fun id other first second hfirst hsecond hturn hpasses hothers => ?_⟩
  obtain ⟨heartbeat, hheartbeat, hpoint, hrunning⟩ := Cluster.passes_running hfirst hpasses
  obtain ⟨heartbeat', hheartbeat', hpoint', hrunning'⟩ := Cluster.passes_running hsecond hothers
  have htaken := ((hidentifies id first hfirst).leaseChecked heartbeat hheartbeat hpoint
    hrunning).mp hpasses
  have htaken' := ((hidentifies other second hsecond).leaseChecked heartbeat' hheartbeat' hpoint'
    hrunning').mp hothers
  exact htaken.holder_unique (hturn ▸ htaken')

end

/-! ### A turn that is redelivered after its keys have expired -/

def redelivered (holder : Nat) : ExecConfig :=
  ⟨1, holder, none, 0, 60, 1, ⟨.ok ("thread", "turn"), []⟩⟩

/-- A turn whose execution in the first process does not get on for half a minute, and which is then
executed again, in this process or in the second; the second execution takes both keys. -/
def reacquired (holder : Nat) : List ClusterAction :=
  .spawn (.handler ⟨1, 1, 1, .admin, false, false, false, ""⟩) ::
    List.replicate 3 (.control 0 none) ++
  .deliver (redelivered 1) true :: List.replicate 6 (.advance 0 none) ++
  List.replicate 30 .tick ++
  .deliver (redelivered holder) false :: List.replicate 6 (.advance 1 none)

/-- The heartbeat of an execution up to its check of the lock, or of the lease. -/
def toLock (id : Nat) : List ClusterAction := List.replicate 2 (.beat id none)

def toLease (id : Nat) : List ClusterAction := List.replicate 3 (.beat id none)

def reacquiredRun (holder : Nat) (rest : List ClusterAction) : Option Cluster :=
  run Cluster.step (Cluster.init fun _ => true) (reacquired holder ++ rest)

/-- Who took the lock of the chat and the lease of the turn. -/
def Cluster.owners (cluster : Cluster) : Option Nat × Option Nat :=
  ((cluster.world.active 1).map StoreEntry.owner, (cluster.world.lease 1).map StoreEntry.owner)

theorem tokens_identify_reacquired : ∃ cluster, reacquiredRun 2 (toLease 0) = some cluster ∧
    cluster.owners = (some 1, some 1) ∧ cluster.passes 0 .lease = false ∧
    ∀ (id : Nat) execution, cluster.executions[id]? = some execution →
      cluster.Identifies id execution := by
  have hseen : (reacquiredRun 2 (toLease 0)).map (fun cluster =>
      (cluster.owners, cluster.passes 0 .lease)) = some ((some 1, some 1), false) := by decide
  obtain ⟨cluster, hrun, hcluster⟩ := Option.map_eq_some_iff.mp hseen
  obtain ⟨howners, hpasses⟩ := Prod.mk.inj hcluster
  exact ⟨cluster, hrun, howners, hpasses, (tokens_identify (reach_of_run_all hrun)).1⟩

/-- In one process both executions pass every check on the keys of the second, and in two processes
the first passes the check of the lock of the second and deletes it on its way out. -/
theorem tokens_shared :
    (reacquiredRun 1 (toLock 0)).map (fun cluster => (cluster.owners, cluster.passes 0 .lock)) =
      some ((some 1, some 1), true) ∧
    (reacquiredRun 1 (toLease 0 ++ toLease 1)).map (fun cluster =>
        (cluster.owners, cluster.passes 0 .lease, cluster.passes 1 .lease)) =
      some ((some 1, some 1), true, true) ∧
    (reacquiredRun 2 (toLock 0)).map (fun cluster => (cluster.owners, cluster.passes 0 .lock)) =
      some ((some 1, some 1), true) ∧
    (reacquiredRun 2 [.advance 0 (some (.other "unreachable"))]).map Cluster.owners =
      some (some 1, some 1) ∧
    (reacquiredRun 2 [.advance 0 (some (.other "unreachable")), .advance 0 none]).map
      Cluster.owners = some (none, some 1) := by
  decide

end CodexServer
