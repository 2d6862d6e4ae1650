import CodexServer.Proof.HeldLease
import CodexServer.Proof.Sole
import CodexServer.Proof.Tokens

/-!
# The lease of a marked turn

An execution marks its row under its lease, and deletes the lease when its teardown has reached it. So
a turn whose row has its Codex ids has a lease until then, when the lease does not expire and no other
process releases it.
-/

open Async Transition

namespace CodexServer

/-! ### The order of the lease and the mark -/

/-- The row is marked under the lease, and the teardown alone releases the lease. -/
def LeaseOrder (history : ExecHistory) : Op → Prop
  | .markRunning .. => history.leased.isSome = true
  | .releaseLease .. => history.released = true
  | _ => True

def orderMonitor (cfg : ExecConfig) : Monitor Op Op.Val Fault ExecHistory where
  allowed := LeaseOrder
  next history := history.next cfg.turnId

def Op.isOrdered : Op → Bool
  | .markRunning .. | .releaseLease .. => true
  | _ => false

theorem leaseOrder_free {op : Op} (hop : op.isOrdered = false) (history : ExecHistory) :
    LeaseOrder history op := by
  cases op with
  | markRunning | releaseLease => cases hop
  | _ => trivial

theorem leaseOrder_leased {history : ExecHistory} {op : Op} (hleased : history.leased.isSome = true)
    (hop : op.isLeaseChange = false) : LeaseOrder history op := by
  cases op with
  | markRunning => exact hleased
  | releaseLease => cases hop
  | _ => trivial

namespace ExecHistory

variable {history : ExecHistory} {turnId : Nat} {op : Op}

theorem next_leased (hop : op.isLeaseAcquisition = false) (answer : Except Fault op.Val) :
    (history.next turnId op answer).leased = history.leased := by
  cases answer with
  | error => rfl
  | ok value =>
      cases op with
      | setLeaseNx => cases hop
      | external call =>
          cases call with
          | startTurn reply => cases reply <;> rfl
          | _ => rfl
      | nextNote note => cases note <;> rfl
      | _ => rfl

theorem next_released {answer : Except Fault op.Val}
    (h : (history.next turnId op answer).released = false) : history.released = false := by
  cases answer with
  | error => exact h
  | ok value =>
      cases op with
      | discardActiveLease => cases h
      | external call =>
          cases call with
          | startTurn reply => cases reply <;> exact h
          | _ => exact h
      | nextNote note => cases note <;> exact h
      | _ => exact h

end ExecHistory

section

variable {cfg : ExecConfig} {turn : TurnRow} {locals : ExecLocals} {history : ExecHistory}

/-- The lease has been taken. -/
def Leased (_ : ExecLocals) (history : ExecHistory) : Prop := history.leased.isSome = true

variable (cfg) in
abbrev OrderTriple {α : Type} (pre : ExecLocals → ExecHistory → Prop) (code : ExecCode α)
    (post : α → ExecLocals → ExecHistory → Prop) : Prop :=
  Triple (orderMonitor cfg) (fun out _ _ => nomatch out) pre code post fun _ _ _ => True

variable (cfg) in
/-- The code keeps to the order wherever it is started. -/
abbrev Ordered {α : Type} (code : ExecCode α) : Prop :=
  Keeps (orderMonitor cfg) (fun out _ _ => nomatch out) (fun _ _ => True) code

variable (cfg) in
/-- The code keeps to the order once the lease has been taken. -/
abbrev UnderLease {α : Type} (code : ExecCode α) : Prop :=
  Keeps (orderMonitor cfg) (fun out _ _ => nomatch out) Leased code

theorem await_ordered {op : Op} (hop : op.isOrdered = false) : Ordered cfg (await op) :=
  keeps_await Exn.fault fun _ history _ => ⟨leaseOrder_free hop history, fun _ => trivial⟩

theorem command_ordered {op : Op} (default : op.Val) (hop : op.isOrdered = false) :
    Ordered cfg (orOnRedisError (await op) default) :=
  keeps_orOnRedisError monotone_nothing (await_ordered hop) default

theorem modify_ordered (change : ExecLocals → ExecLocals) :
    Ordered cfg (Async.modifyLocal change) := fun _ _ _ => trivial

theorem getLocal_ordered : Ordered cfg (Async.getLocal : ExecCode ExecLocals) :=
  fun _ _ _ => trivial

theorem publish_ordered (turnId : Nat) (event : ChatEvent) : Ordered cfg (publish turnId event) :=
  (await_ordered rfl).bind monotone_nothing fun _ =>
    (await_ordered rfl).bind monotone_nothing fun _ => keeps_pure _

/-! ### Under the lease -/

theorem await_leased {op : Op} (hop : op.isLeaseChange = false) : UnderLease cfg (await op) := by
  refine keeps_await Exn.fault fun _ history hleased =>
    ⟨leaseOrder_leased hleased hop, fun answer => ?_⟩
  have hacquisition : op.isLeaseAcquisition = false := by
    cases op with
    | setLeaseNx => cases hop
    | _ => rfl
  exact (congrArg Option.isSome (ExecHistory.next_leased hacquisition answer)).trans hleased

theorem modify_leased (change : ExecLocals → ExecLocals) :
    UnderLease cfg (Async.modifyLocal change) :=
  keeps_modifyLocal change fun _ _ h => h

theorem forwardFrame_leased (event : ChatEvent) : UnderLease cfg (forwardFrame cfg event) := by
  refine (await_leased rfl).bind monotone_nothing fun lost => Keeps.ite ?_ ?_
  · exact (modify_leased _).bind monotone_nothing fun _ => keeps_pure _
  · have hpublish : UnderLease cfg (publish cfg.turnId event) :=
      (await_leased rfl).bind monotone_nothing fun _ =>
        (await_leased rfl).bind monotone_nothing fun _ => keeps_pure _
    refine hpublish.bind monotone_nothing fun _ =>
      (await_leased rfl).bind monotone_nothing fun _ => ?_
    split
    · exact (modify_leased _).bind monotone_nothing fun _ => keeps_pure _
    · exact keeps_pure _

theorem runCodexTurn_leased : UnderLease cfg (runCodexTurn cfg turn) := by
  have hloop : UnderLease cfg
      (Async.forEach (forwardFrame cfg) (Async.generator (streamTurn cfg turn) {})) := by
    refine Keeps.forEach monotone_nothing forwardFrame_leased streamTurn_only ?_
    intro op hop _ history h
    have hchange := isLeaseChange_of_stream hop
    have hacquisition : op.isLeaseAcquisition = false := by
      cases op with
      | setLeaseNx => cases hchange
      | _ => rfl
    exact ⟨leaseOrder_leased h hchange, fun answer =>
      (congrArg Option.isSome (ExecHistory.next_leased hacquisition answer)).trans h⟩
  exact (await_leased rfl).bind monotone_nothing fun _ =>
    Keeps.tryFinally monotone_nothing (hloop.bind monotone_nothing fun _ => keeps_pure _)
      (await_leased rfl)

/-- A lease that is granted has been taken. -/
theorem leaseAcquire_leased (holder : Nat) : OrderTriple cfg (fun _ _ => True)
    (Lease.acquire cfg.turnId holder) fun acquired locals history =>
      acquired = true → Leased locals history := by
  intro locals history _
  unfold Lease.acquire
  rw [wp_bind, wp_orOnRedisError]
  refine (wp_await _).mpr ⟨trivial, fun acquired => ?_, fun failure => ?_⟩
  · rw [either_ok, either_ok, wp_ite]
    split
    · next hacquired =>
        rw [hacquired, wp_bind]
        exact (wp_await _).mpr ⟨trivial, fun _ _ => rfl, fun _ => trivial⟩
    · exact fun htrue => by cases htrue
  · cases failure with
    | redisError => exact fun htrue => by cases htrue
    | cancelled | timeout | rpcError | staleTurnStream | staleSidecarTurn | queueError | other =>
        trivial

theorem withOutcome_ordered (outcome : LockAcquireOutcome) :
    Ordered cfg (withOutcome cfg turn outcome) := by
  cases outcome with
  | redelivery | activeBusy => exact modify_ordered _
  | acquired =>
      intro locals history _
      unfold withOutcome
      rw [wp_bind]
      refine (leaseAcquire_leased cfg.holder).call monotone_nothing trivial ?_ fun _ _ _ _ => trivial
      intro leased locals history h
      rw [either_ok, wp_ite]
      split
      · next hleased =>
          have hrest : UnderLease cfg (do
              Async.modifyLocal fun locals => { locals with leaseHolder := some cfg.holder }
              await (.startHeartbeat cfg.turnId turn.chatId cfg.holder)
              Async.modifyLocal fun locals => { locals with heartbeatTask := true }
              runCodexTurn cfg turn) :=
            (modify_leased _).bind monotone_nothing fun _ =>
              (await_leased rfl).bind monotone_nothing fun _ =>
                (modify_leased _).bind monotone_nothing fun _ => runCodexTurn_leased
          exact hrest.call monotone_nothing (h hleased) (fun _ _ _ _ => trivial)
            fun _ _ _ _ => trivial
      · exact modify_ordered _ locals history trivial

theorem holdTurnLocks_ordered :
    Ordered cfg (Locks.holdTurnLocks turn.chatId cfg.turnId (withOutcome cfg turn)) := by
  refine (command_ordered _ rfl).bind monotone_nothing fun acquired => Keeps.ite ?_ ?_
  · exact Keeps.tryFinally monotone_nothing (withOutcome_ordered _)
      ((command_ordered _ rfl).bind monotone_nothing fun _ => keeps_pure _)
  · have hholder : Ordered cfg (Locks.outcomeUnlocked turn.chatId cfg.turnId) :=
      (command_ordered _ rfl).bind monotone_nothing fun _ => keeps_pure _
    exact hholder.bind monotone_nothing fun outcome => withOutcome_ordered outcome

/-! ### The way out of an execution -/

theorem executionFailed_ordered (error : Exn) : Ordered cfg (executionFailed cfg error) := by
  have hcrash (detail : String) : Ordered cfg (do
      Async.modifyLocal fun locals =>
        { locals with
          terminalStatus := some .failed
          terminalError := (some "codex_error", some detail) }
      exceptException
        (do
          let _ ← publish cfg.turnId (errorEvent CodexErrorCode.codexError (some detail))
          Async.modifyLocal fun locals => { locals with terminalPublished := true })
        fun _ => pure ()) := by
    refine (modify_ordered _).bind monotone_nothing fun _ => ?_
    refine keeps_exceptException monotone_nothing ?_ fun _ => keeps_pure _
    exact (publish_ordered _ _).bind monotone_nothing fun _ => modify_ordered _
  unfold executionFailed
  split
  · exact (modify_ordered _).bind monotone_nothing fun _ => keeps_throw _
  · exact hcrash _

/-- The lease leaves the registry before Redis. -/
theorem releaseHeld_ordered (holder : Option Nat) : Ordered cfg (releaseHeld cfg holder) := by
  cases holder with
  | none => exact keeps_pure _
  | some holder =>
      intro locals history _
      unfold releaseHeld Lease.release
      rw [wp_bind, wp_bind]
      refine (wp_await _).mpr ⟨trivial, fun _ => ?_, fun _ => trivial⟩
      rw [either_ok, wp_orOnRedisError]
      refine (wp_await _).mpr ⟨rfl, fun _ => trivial, fun failure => ?_⟩
      cases failure <;> trivial

theorem executionFinally_ordered : Ordered cfg (executionFinally cfg) := by
  have hteardown : Ordered cfg (teardown cfg) := by
    refine getLocal_ordered.bind monotone_nothing fun locals => Keeps.ite ?_ (keeps_pure _)
    exact ((await_ordered rfl).attempt monotone_nothing).bind monotone_nothing fun _ =>
      releaseHeld_ordered _
  have hsafety : Ordered cfg (publishSafetyTerminal cfg) := by
    refine getLocal_ordered.bind monotone_nothing fun locals => (keeps_pure _).ite ?_
    exact keeps_exceptException monotone_nothing
      ((publish_ordered _ _).bind monotone_nothing fun _ => keeps_pure _) fun _ => keeps_pure _
  have hfinal : Ordered cfg (finalizeTurn cfg) := by
    refine getLocal_ordered.bind monotone_nothing fun locals => ?_
    split
    · exact (keeps_pure _).ite ((await_ordered rfl).bind monotone_nothing fun _ => keeps_pure _)
    · exact keeps_pure _
  have hrelease : Ordered cfg (releaseTurn cfg) :=
    (await_ordered rfl).bind monotone_nothing fun _ => (await_ordered rfl).ite (keeps_pure ())
  exact hteardown.bind monotone_nothing fun _ => hsafety.bind monotone_nothing fun _ =>
    hfinal.bind monotone_nothing fun _ => getLocal_ordered.bind monotone_nothing fun _ =>
      (keeps_pure ()).ite hrelease

/-- **An execution keeps to the order.** -/
theorem executeTurn_ordered (cfg : ExecConfig) (history : ExecHistory) : (executeTurn cfg).wp
    (orderMonitor cfg) (fun out _ _ => nomatch out) (fun _ _ => True) history := by
  have hloaded (turn : TurnRow) : Ordered cfg (executeLoaded cfg turn) :=
    Keeps.tryFinally monotone_nothing
      (holdTurnLocks_ordered.tryCatch monotone_nothing executionFailed_ordered)
      executionFinally_ordered
  have hinner : Ordered cfg (executeTurnInner cfg) := by
    refine (await_ordered rfl).bind monotone_nothing fun found => ?_
    cases found with
    | none => exact keeps_pure _
    | some turn =>
        exact (keeps_pure _).ite ((await_ordered rfl).bind monotone_nothing fun _ =>
          (hloaded turn).ite (keeps_pure _))
  have hrun : Async.wp (orderMonitor cfg) (fun out _ _ => nomatch out) (executeTurnInner cfg)
      (fun _ _ _ => True) {} history :=
    hinner.call monotone_nothing trivial (fun _ _ _ _ => trivial) fun _ _ _ _ => trivial
  unfold executeTurn
  rw [Program.wp_bind]
  exact hrun

end

/-! ### The mark and the lease after an operation -/

section

variable {world : World} {self turnId : Nat} {lost : Bool} {op : Op} {row : TurnRow}

theorem TurnUpdate.apply_codexTurnId {statement : TurnUpdate} {before after : TurnRow}
    (happly : statement.apply before = some after)
    (hmark : ∀ threadId codexTurnId now, statement ≠ .markRunning threadId codexTurnId now) :
    after.codexTurnId = before.codexTurnId := by
  cases statement with
  | markRunning threadId codexTurnId now => exact absurd rfl (hmark _ _ _)
  | heartbeat | finalizeOnce =>
      obtain ⟨_, hafter⟩ := Option.ite_none_right_eq_some.mp happly
      cases hafter
      rfl
  | setStreamKey | attachAssistantMessage | updateLastEvent =>
      cases happly
      rfl

/-- A row is marked by `mark_running` alone. -/
theorem World.marked_before
    (hop : ∀ threadId codexTurnId, op ≠ .markRunning turnId threadId codexTurnId)
    (hrow : (world.perform self lost op).2.turns turnId = some row)
    (hmarked : row.codexTurnId.isSome = true) :
    ∃ before, world.turns turnId = some before ∧ before.codexTurnId.isSome = true := by
  have hstep : RowStep world op turnId (world.turns turnId)
      ((world.perform self lost op).2.turns turnId) := perform_row
  rw [hrow] at hstep
  generalize world.turns turnId = before at hstep ⊢
  generalize hafter : some row = after at hstep
  cases hstep with
  | unchanged => exact ⟨row, hafter.symm, hmarked⟩
  | @updated earlier later statement hstatement happly =>
      obtain rfl := Option.some.inj hafter
      refine ⟨earlier, rfl, ?_⟩
      rwa [TurnUpdate.apply_codexTurnId happly ?_] at hmarked
      rintro threadId codexTurnId now rfl
      cases op with
      | markRunning =>
          cases hstatement
          exact hop _ _ rfl
      | _ => cases hstatement
  | created _ payload =>
      obtain rfl := Option.some.inj hafter
      cases hmarked

/-- A lease that is there stays, unless it is released. -/
theorem World.lease_kept (hop : ∀ holder, op ≠ .releaseLease turnId holder)
    (hlease : (world.lease turnId).isSome = true) :
    ((world.perform self lost op).2.lease turnId).isSome = true := by
  rcases (perform_effect world self lost op).lease with hkept | ⟨command, hcommand, hrun⟩
  · rw [hkept]
    exact hlease
  · rw [hrun]
    refine StoreCommand.run_isSome _ _ _ _ (fun value hdel => ?_) hlease
    subst hdel
    cases op with
    | releaseLease =>
        cases hcommand
        exact hop _ rfl
    | _ => cases hcommand

/-- After `SET NX` there is a lease, whoever took it. -/
theorem World.lease_setNx (holder : Nat) :
    ((world.perform self lost (.setLeaseNx turnId holder)).2.lease turnId).isSome = true := by
  simp only [World.perform, acquireLease_world, ExpiringStore.setNx]
  split
  · next hheld => exact hheld
  · simp

/-! ### A marked turn has a lease -/

/-- What the record of the turn's execution has to do with its mark and its lease. -/
structure ExecHistory.Leases (turnId : Nat) (world : World) (history : ExecHistory) : Prop where
  marked : ∀ row, world.turns turnId = some row → row.codexTurnId.isSome = true →
    history.leased.isSome = true
  live : history.leased.isSome = true → history.released = false →
    (world.lease turnId).isSome = true

/-- The row has no Codex ids. -/
def World.Unmarked (turnId : Nat) (world : World) : Prop :=
  ∀ row, world.turns turnId = some row → row.codexTurnId.isSome = false

theorem World.Unmarked.kept (h : world.Unmarked turnId)
    (hop : ∀ threadId codexTurnId, op ≠ .markRunning turnId threadId codexTurnId) :
    (world.perform self lost op).2.Unmarked turnId := by
  intro row hrow
  by_contra hmarked
  rw [Bool.not_eq_false] at hmarked
  obtain ⟨before, hbefore, hsome⟩ := World.marked_before hop hrow hmarked
  exact Bool.false_ne_true ((h before hbefore).symm.trans hsome)

variable {history : ExecHistory} {cfg : ExecConfig}

theorem ExecHistory.Leases.kept (h : history.Leases turnId world)
    (hmark : ∀ threadId codexTurnId, op ≠ .markRunning turnId threadId codexTurnId)
    (hrelease : ∀ holder, op ≠ .releaseLease turnId holder) :
    history.Leases turnId (world.perform self lost op).2 where
  marked row hrow hmarked := by
    obtain ⟨before, hbefore, hsome⟩ := World.marked_before hmark hrow hmarked
    exact h.marked before hbefore hsome
  live hleased hreleased := World.lease_kept hrelease (h.live hleased hreleased)

/-- The record after an answer. -/
theorem ExecHistory.Leases.done (h : history.Leases turnId world)
    (hallowed : ExecAllowed cfg history op) (hturn : cfg.turnId = turnId)
    (horder : LeaseOrder history op) :
    (history.next turnId op (.ok (world.perform self lost op).1)).Leases turnId
      (world.perform self lost op).2 := by
  by_cases hacquisition : op.isLeaseAcquisition = true
  · cases op with
    | setLeaseNx target holder =>
        refine ⟨fun row hrow hmarked => ?_, fun hleased _ => ?_⟩
        · -- a row that is marked has had its lease
          obtain ⟨before, hbefore, hsome⟩ :=
            World.marked_before (fun _ _ hop => by cases hop) hrow hmarked
          have hnone : history.leased = none := hallowed.2.2.1
          have hleased := h.marked before hbefore hsome
          rw [hnone] at hleased
          cases hleased
        · obtain rfl : target = turnId := hallowed.1.trans hturn
          exact World.lease_setNx holder
    | _ => cases hacquisition
  · rw [Bool.not_eq_true] at hacquisition
    have hleased : (history.next turnId op (.ok (world.perform self lost op).1)).leased =
        history.leased := ExecHistory.next_leased hacquisition _
    refine ⟨fun row hrow hmarked => ?_, fun htaken hreleased => ?_⟩
    · rw [hleased]
      cases op with
      | markRunning => exact horder
      | _ =>
          obtain ⟨before, hbefore, hsome⟩ :=
            World.marked_before (fun _ _ hop => by cases hop) hrow hmarked
          exact h.marked before hbefore hsome
    · rw [hleased] at htaken
      have hbefore := ExecHistory.next_released hreleased
      refine World.lease_kept ?_ (h.live htaken hbefore)
      rintro holder rfl
      exact Bool.false_ne_true (hbefore.symm.trans horder)

variable {cluster next : Cluster} {action : ClusterAction}

/-! ### Along a run -/

/-- The rest of the execution keeps to the order of the lease and the mark. -/
def Execution.Ordered (execution : Execution) : Prop :=
  execution.program.wp (orderMonitor execution.cfg) (fun out _ _ => nomatch out) (fun _ _ => True)
    execution.history

theorem Execution.Awaits.order {execution after : Execution} {raised : Option Fault}
    {world' : World} (h : execution.Awaits self world op raised after world')
    (hordered : execution.Ordered) : LeaseOrder execution.history op ∧ after.Ordered := by
  unfold Execution.Ordered at hordered
  cases h with
  | answered rest hprogram =>
      rw [hprogram] at hordered
      exact ⟨hordered.1, hordered.2 (.ok _)⟩
  | raised failure rest hprogram =>
      rw [hprogram] at hordered
      exact ⟨hordered.1, hordered.2 (.error failure)⟩

theorem reach_ordered {Allowed : Cluster → ClusterAction → Prop} {users : Nat → Bool}
    (hreach : Reach Cluster.step Allowed (Cluster.init users) cluster) :
    ∀ (id : Nat) execution, cluster.executions[id]? = some execution → execution.Ordered := by
  refine hreach.invariant (fun cluster => ∀ (id : Nat) execution,
    cluster.executions[id]? = some execution → execution.Ordered)
    (fun _ _ hexecution => by simp [Cluster.init] at hexecution) ?_
  intro before action after h _ hstep id execution hexecution
  cases (Cluster.steps_of_step hstep).continues hexecution with
  | started cfg again haction hqueue hid hstarted =>
      subst hstarted
      exact executeTurn_ordered cfg {}
  | advanced earlier op raised haction hbefore hawaits =>
      exact (hawaits.order (h id earlier hbefore)).2
  | kept earlier haction hbefore hcfg hprogram hhistory =>
      unfold Execution.Ordered
      rw [hcfg, hprogram, hhistory]
      exact h id earlier hbefore

/-- The lease of the turn does not expire in this step. -/
def Cluster.lasts (turnId : Nat) (cluster : Cluster) (action : ClusterAction) : Bool :=
  match action with
  | .tick => (cluster.world.lease turnId).all fun entry => cluster.world.now + 1 < entry.deadline
  | _ => true

theorem World.lease_tick (hlasts : ∀ entry, world.lease turnId = some entry →
    world.now + 1 < entry.deadline) : world.tick.lease turnId = world.lease turnId := by
  change (world.lease turnId).filter _ = _
  cases hlease : world.lease turnId with
  | none => rfl
  | some entry => simpa [Option.filter] using hlasts entry hlease

/-- The turn and its lease as its one execution sees them. -/
abbrev Cluster.Leases (turnId : Nat) (cluster : Cluster) : Prop :=
  cluster.Sole turnId (World.Unmarked turnId) fun world _ history => history.Leases turnId world

/-- What the others do leaves the mark and the lease as they are: no other process is shut down. -/
theorem Cluster.Others.leases (h : cluster.Others turnId action world)
    (hconforms : cluster.Conforms) (hlasts : cluster.lasts turnId action = true)
    (hrunning : ∀ control ∈ cluster.controls, ∀ holder, control.kind ≠ .shutdown holder) :
    (cluster.world.Unmarked turnId → world.Unmarked turnId) ∧
      ∀ history : ExecHistory, history.Leases turnId cluster.world →
        history.Leases turnId world := by
  cases h with
  | tick =>
      have hlease : cluster.world.tick.lease turnId = cluster.world.lease turnId :=
        World.lease_tick fun entry hentry => by simpa [Cluster.lasts, hentry] using hlasts
      exact ⟨fun h => h, fun _ h => ⟨h.marked, fun hleased hreleased =>
        hlease ▸ h.live hleased hreleased⟩⟩
  | bookkeeping => exact ⟨fun h => h, fun _ h => ⟨h.marked, h.live⟩⟩
  | performed self lost op hop hraised hforeign hapart =>
      have hmark : ∀ threadId codexTurnId, op ≠ .markRunning turnId threadId codexTurnId := by
        rintro threadId codexTurnId rfl
        rcases hforeign rfl with hbeat | ⟨_, hfinal⟩
        · cases hbeat
        · cases hfinal
      have hrelease : ∀ holder, op ≠ .releaseLease turnId holder := by
        rintro holder rfl
        cases hconforms.actor hop with
        | execution id raised hexecution hallowed =>
            exact hapart id raised _ rfl hexecution hallowed.1.symm
        | heartbeat id raised hexecution hheartbeat hbeat =>
            unfold Heartbeat.op at hbeat
            split at hbeat <;> cases hbeat
        | control id raised hcontrol hallowed =>
            exact hrunning _ (List.mem_of_getElem? hcontrol) holder hallowed.1
      exact ⟨fun h => h.kept hmark, fun _ h => h.kept hmark hrelease⟩

theorem Cluster.Leases.step (h : cluster.Leases turnId) (hconforms : cluster.Conforms)
    (hordered : ∀ (id : Nat) execution, cluster.executions[id]? = some execution →
      execution.Ordered)
    (hdeliver : ∀ cfg again, action = .deliver cfg again → cfg.turnId = turnId →
      cluster.undelivered turnId = true)
    (hlasts : cluster.lasts turnId action = true)
    (hrunning : ∀ control ∈ cluster.controls, ∀ holder, control.kind ≠ .shutdown holder)
    (hsteps : cluster.Steps action next) : next.Leases turnId := by
  refine Cluster.Sole.step h hconforms hsteps hdeliver ?_ ?_ ?_
  · intro cfg _ _ hunmarked
    refine ⟨fun row hrow hmarked => ?_, fun hleased => by cases hleased⟩
    exact absurd ((hunmarked row hrow).symm.trans hmarked) Bool.false_ne_true
  · intro world hothers
    have hkept := hothers.leases hconforms hlasts hrunning
    exact ⟨hkept.1, fun _ history => hkept.2 history⟩
  · intro id execution after op raised haction hexecution hturn hawaits hleases
    have hown := hconforms.executions execution (List.mem_of_getElem? hexecution)
    have hpermitted := hawaits.allowed hown
    have horder := (hawaits.order (hordered id execution hexecution)).1
    generalize hnext : next.world = world at hawaits ⊢
    cases hawaits with
    | answered rest hprogram =>
        have hcfg : execution.cfg.turnId = turnId := hturn
        rw [show execution.turnId = turnId from hturn]
        exact hleases.done hpermitted hcfg horder
    | raised failure rest hprogram => exact ⟨hleases.marked, hleases.live⟩

theorem Cluster.init_leases (users : Nat → Bool) : (Cluster.init users).Leases turnId := by
  refine ⟨fun id other execution later hexecution => ?_, fun _ row hrow => ?_,
    fun id execution hexecution => ?_⟩
  · simp [Cluster.init] at hexecution
  · simp [Cluster.init, World.empty] at hrow
  · simp [Cluster.init] at hexecution

end

end CodexServer
