import CodexServer.Proof.TerminalFrame
import CodexServer.Proof.LiveLease

/-!
# A published done frame and the handlers

A handler finalises the active turn of its chat when it takes it for stale or dead, or when Codex says
that it runs another one. It asks for the lease of a marked turn only, which has one until its
execution releases it. So a handler that asks earlier, or after the outcome, and is not failed by
others, leaves the turn to its execution, and a done frame in the stream is the outcome of the row.
-/

open Async Transition

namespace CodexServer

/-! ### The order in which a handler goes on -/

/-- What a handler has found when it looked for the active turn of its chat, and the turn it has
created and not handed to the queue yet. -/
structure HandlerStage where
  looked : Option (Option TurnRow) := none
  created : Option Nat := none

def Op.isLook : Op → Bool
  | .getActiveForChat _ => true
  | _ => false

def Op.isCreation : Op → Bool
  | .createTurn _ => true
  | _ => false

def Op.isSweep : Op → Bool
  | .findStaleActive _ => true
  | _ => false

namespace HandlerStage

variable (stage : HandlerStage)

def next : (op : Op) → Except Fault op.Val → HandlerStage
  | .getActiveForChat _, .ok found => { stage with looked := some found }
  | .getActiveForChat _, .error _ => { stage with looked := some none }
  | .createTurn _, .ok (some row) => { stage with created := some row.id }
  | .enqueue _, _ => { stage with created := none }
  | _, _ => stage

/-- A turn that has been created is enqueued next, the chat is looked at once, before the checks, and
the lease is asked for of a turn that was found with its Codex ids. -/
structure Allowed (op : Op) : Prop where
  enqueued : ∀ turnId, stage.created = some turnId → op = .enqueue turnId
  look : op.isLook = true → stage.looked = none
  check : op.isLeaseCheck = true ∨ op.isControlRpc = true → stage.looked.isSome = true
  marked : op.isLeaseCheck = true →
    ∃ row, stage.looked = some (some row) ∧ row.codexTurnId.isSome = true
  sweep : op.isSweep = false

/-- The look is the first thing a handler does. -/
theorem allowed_look (chatId : Nat) : Allowed {} (.getActiveForChat chatId) where
  enqueued _ hcreated := by cases hcreated
  look _ := rfl
  check hcheck := by simp [Op.isLeaseCheck, Op.isControlRpc] at hcheck
  marked hcheck := by simp [Op.isLeaseCheck] at hcheck
  sweep := rfl

/-- After the look there is no other, and no sweep at all. -/
theorem allowed_looked {found : Option TurnRow} {op : Op} (hlook : op.isLook = false)
    (hlease : op.isLeaseCheck = false) (hsweep : op.isSweep = false) :
    Allowed ⟨some found, none⟩ op where
  enqueued _ hcreated := by cases hcreated
  look hlooks := by simp [hlook] at hlooks
  check _ := rfl
  marked hcheck := by simp [hlease] at hcheck
  sweep := hsweep

theorem allowed_leaseExists {row : TurnRow} (hmarked : row.codexTurnId.isSome = true)
    (turnId : Nat) : Allowed ⟨some (some row), none⟩ (.leaseExists turnId) where
  enqueued _ hcreated := by cases hcreated
  look hlooks := by simp [Op.isLook] at hlooks
  check _ := rfl
  marked _ := ⟨row, rfl, hmarked⟩
  sweep := rfl

theorem allowed_enqueue (found : Option TurnRow) (turnId : Nat) :
    Allowed ⟨some found, some turnId⟩ (.enqueue turnId) where
  enqueued _ hcreated := by rw [Option.some.inj hcreated]
  look hlooks := by simp [Op.isLook] at hlooks
  check _ := rfl
  marked hcheck := by simp [Op.isLeaseCheck] at hcheck
  sweep := rfl

end HandlerStage

def stageMonitor : Monitor Op Op.Val Fault HandlerStage where
  allowed := HandlerStage.Allowed
  next stage := stage.next

/-- The code of a handler after its look, which creates no turn. -/
abbrev Checking {α : Type} (found : Option TurnRow) (code : ControlCode α) : Prop :=
  Keeps stageMonitor (fun out _ _ => nomatch out) (fun _ stage => stage = ⟨some found, none⟩) code

theorem monotone_stage : Program.Monotone
    (fun (out : Empty) (_ : HandlerStage → Prop) (_ : HandlerStage) => nomatch out) :=
  fun out => nomatch out

section

variable {found : Option TurnRow}

theorem checking_await {op : Op} (hlook : op.isLook = false) (hlease : op.isLeaseCheck = false)
    (hcreation : op.isCreation = false) (hsweep : op.isSweep = false) :
    Checking found (await op) := by
  refine keeps_await Exn.fault ?_
  rintro _ stage rfl
  refine ⟨HandlerStage.allowed_looked hlook hlease hsweep, fun answer => ?_⟩
  cases op with
  | getActiveForChat => cases hlook
  | createTurn => cases hcreation
  | _ => rfl

/-- A Redis command whose failure is taken for this answer. -/
theorem checking_command (op : Op) (default : op.Val) (hlook : op.isLook = false)
    (hlease : op.isLeaseCheck = false) (hcreation : op.isCreation = false)
    (hsweep : op.isSweep = false) : Checking found (orOnRedisError (await op) default) :=
  keeps_orOnRedisError monotone_stage (checking_await hlook hlease hcreation hsweep) default

theorem checking_leaseExists {row : TurnRow} (hmarked : row.codexTurnId.isSome = true)
    (turnId : Nat) : Checking (some row) (Lease.exists_ turnId) := by
  have hawait : Checking (some row) (await (.leaseExists turnId)) := by
    refine keeps_await Exn.fault ?_
    rintro _ stage rfl
    exact ⟨HandlerStage.allowed_leaseExists hmarked turnId, fun _ => rfl⟩
  exact keeps_orOnRedisError monotone_stage hawait false

namespace Handler

variable {prepared : PreparedRunTurn} {active : TurnRow}

theorem checking_releaseActive (chatId turnId : Nat) :
    Checking found (Locks.releaseActive chatId turnId) :=
  checking_command (.delActiveIfEq chatId turnId) false rfl rfl rfl rfl

theorem checking_finalizeOrphan (turn : TurnRow) : Checking found (Recovery.finalizeOrphan turn) :=
  (checking_await rfl rfl rfl rfl).bind monotone_stage fun _ =>
    (checking_releaseActive _ _).bind monotone_stage fun _ => keeps_pure ()

theorem checking_reconcileIfStale (turn : TurnRow) :
    Checking found (Recovery.reconcileIfStale turn) := by
  refine (checking_await rfl rfl rfl rfl).bind monotone_stage fun now => ?_
  refine Keeps.ite (keeps_pure false) ?_
  exact (checking_finalizeOrphan turn).bind monotone_stage fun _ => keeps_pure true

theorem checking_interruptStale (turn : TurnRow) : Checking found (interruptStale turn) := by
  refine Keeps.ite ?_ (keeps_pure ())
  refine (checking_await rfl rfl rfl rfl).tryCatch monotone_stage fun error => ?_
  split
  · exact keeps_pure ()
  · exact Keeps.ite (keeps_pure ()) (keeps_throw _)

theorem checking_quarantineThread (threadId : String) :
    Checking found (quarantineThread threadId) :=
  Keeps.ite (keeps_pure ()) (checking_command (.external .quarantine) () rfl rfl rfl rfl)

theorem checking_handleStaleTurn (turn : TurnRow) :
    Checking found (handleStaleTurn prepared turn) := by
  refine (checking_interruptStale turn).bind monotone_stage fun _ => ?_
  refine (checking_quarantineThread _).bind monotone_stage fun _ => ?_
  exact (checking_await rfl rfl rfl rfl).bind monotone_stage fun _ => keeps_pure ()

theorem checking_sendSteer (codexTurnId : String) :
    Checking found (sendSteer prepared codexTurnId) := by
  refine (checking_await rfl rfl rfl rfl).bind monotone_stage fun _ => ?_
  refine Keeps.ite ?_ (keeps_pure false)
  exact (checking_command (.noteSteer prepared.chatId codexTurnId) () rfl rfl rfl rfl).bind
    monotone_stage fun _ => keeps_pure true

theorem checking_trySteerActiveTurn (codexTurnId : String) :
    Checking found (trySteerActiveTurn prepared active codexTurnId) := by
  refine ((checking_sendSteer codexTurnId).attempt monotone_stage).bind monotone_stage
    fun outcome => ?_
  split
  · exact (checking_handleStaleTurn active).bind monotone_stage fun _ => keeps_pure _
  · exact Keeps.ite (keeps_pure none) (keeps_throw _)
  · exact keeps_pure none
  · refine (checking_await rfl rfl rfl rfl).bind monotone_stage fun _ => ?_
    exact (checking_command (.bumpSteer active.id) () rfl rfl rfl rfl).bind monotone_stage
      fun _ => keeps_pure _

theorem checking_tryInterruptActiveTurn :
    Checking found (tryInterruptActiveTurn prepared active) := by
  have hsend : Checking found (sendInterrupt prepared active) :=
    Keeps.ite ((checking_await rfl rfl rfl rfl).bind monotone_stage fun _ => keeps_pure _)
      (keeps_pure false)
  refine (hsend.attempt monotone_stage).bind monotone_stage fun outcome => ?_
  split
  · exact (checking_handleStaleTurn active).bind monotone_stage fun _ => keeps_pure _
  · exact Keeps.ite (keeps_pure _) (keeps_throw _)
  · exact keeps_pure _

theorem checking_handleRunningTurn (codexTurnId : String) :
    Checking found (handleRunningTurn prepared active codexTurnId) := by
  refine Keeps.ite (keeps_pure _) ?_
  refine (checking_trySteerActiveTurn codexTurnId).bind monotone_stage fun event => ?_
  cases event with
  | some event => exact keeps_pure _
  | none =>
      refine checking_tryInterruptActiveTurn.bind monotone_stage fun result => ?_
      obtain ⟨interrupted, event⟩ := result
      cases event with
      | some event => exact keeps_pure _
      | none => exact Keeps.ite (keeps_pure none) (keeps_pure _)

theorem checking_handleMarkedTurn (hmarked : active.codexTurnId.isSome = true)
    (codexTurnId : String) :
    Checking (some active) (handleMarkedTurn prepared active codexTurnId) := by
  have hzombie : Checking (some active) (finalizeZombie active) :=
    (checking_await rfl rfl rfl rfl).bind monotone_stage fun _ =>
      (checking_releaseActive _ _).bind monotone_stage fun _ => keeps_pure ()
  refine (checking_leaseExists hmarked active.id).bind monotone_stage fun alive => ?_
  refine Keeps.ite (checking_handleRunningTurn codexTurnId) ?_
  exact hzombie.bind monotone_stage fun _ => keeps_pure none

/-- A turn that has been created is enqueued, and that ends the handler but for the outcome of a
failed `kiq`. -/
theorem enqueueTurn_stage (turn : TurnRow) : Triple stageMonitor (fun out _ _ => nomatch out)
      (fun _ stage => stage = ⟨some found, some turn.id⟩)
      (enqueueTurn turn) (fun _ _ _ => True) fun _ _ _ => True := by
  rintro locals stage rfl
  unfold enqueueTurn
  rw [wp_bind, wp_attempt]
  refine (wp_await _).mpr
    ⟨HandlerStage.allowed_enqueue found turn.id, fun _ => trivial, fun failure => ?_⟩
  cases failure with
  | queueError text | redisError text | timeout text =>
      exact (wp_await_bind _ _).mpr ⟨HandlerStage.allowed_looked rfl rfl rfl, fun _ => trivial,
        fun _ => trivial⟩
  | cancelled | rpcError | staleTurnStream | staleSidecarTurn | other => trivial

/-- What is done with the active turn of the chat. -/
theorem checking_active (active : TurnRow) : Checking (some active) (do
    let stale ← Recovery.reconcileIfStale active
    if stale then pure none
    else
      match active.codexTurnId with
      | none => pure (some (turnBusy "another turn is starting for this chat"))
      | some codexTurnId => handleMarkedTurn prepared active codexTurnId) := by
  refine (checking_reconcileIfStale active).bind monotone_stage fun stale => ?_
  refine Keeps.ite (keeps_pure none) ?_
  cases hmarked : active.codexTurnId with
  | none => exact keeps_pure _
  | some codexTurnId =>
      exact checking_handleMarkedTurn (Option.isSome_iff_exists.mpr ⟨_, hmarked⟩) codexTurnId

/-- The handler goes on in this order. -/
theorem runTurn_stage (prepared : PreparedRunTurn) :
    (runTurn prepared).thread.wp stageMonitor (fun out _ _ => nomatch out) (fun _ _ => True) {} := by
  have hactive : Triple stageMonitor (fun out _ _ => nomatch out) (fun _ stage => stage = {})
      (handleActiveTurn prepared) (fun _ _ stage => ∃ found, stage = ⟨some found, none⟩)
      fun _ _ stage => ∃ found, stage = ⟨some found, none⟩ := by
    rintro locals stage rfl
    unfold handleActiveTurn
    refine (wp_await_bind _ _).mpr ⟨HandlerStage.allowed_look _, fun found => ?_, fun _ => ⟨_, rfl⟩⟩
    cases found with
    | none => exact ⟨_, rfl⟩
    | some active =>
        exact (checking_active active).call monotone_stage rfl (fun _ _ _ h => ⟨_, h⟩)
          fun _ _ _ h => ⟨_, h⟩
  unfold ControlCode.thread
  rw [Program.wp_bind]
  have hrun : Async.wp stageMonitor (fun out _ _ => nomatch out) (runTurn prepared)
      (fun _ _ _ => True) () {} := by
    unfold runTurn
    rw [wp_bind]
    refine hactive.call monotone_stage rfl ?_ fun _ _ _ _ => trivial
    rintro event locals stage ⟨found, rfl⟩
    cases event with
    | some event => trivial
    | none =>
        rw [either_ok, wp_bind, createWebTurn]
        refine (wp_await_bind _ _).mpr ⟨HandlerStage.allowed_looked rfl rfl rfl, fun created => ?_,
          fun _ => trivial⟩
        cases created with
        | none => trivial
        | some turn =>
            have henqueue : Async.wp stageMonitor (fun out _ _ => nomatch out) (enqueueTurn turn)
                (fun _ _ _ => True) locals ⟨some found, some turn.id⟩ :=
              (enqueueTurn_stage turn).call monotone_stage rfl (fun _ _ _ _ => trivial)
                fun _ _ _ _ => trivial
            exact henqueue
  exact hrun

end Handler

end

/-! ### The checks of a handler -/

namespace Cluster

variable (turnId : Nat) (cluster : Cluster)

/-- The execution of the turn has executed `finalize_once`. -/
def settled : Bool := cluster.executions.any fun execution =>
  execution.turnId = turnId && execution.history.requested.isSome

/-- The teardown of the execution has reached the lease, and `finalize_once` is still to come. -/
def releasing : Bool := cluster.executions.any fun execution =>
  execution.turnId = turnId && execution.history.released && execution.history.requested.isNone

/-- An execution has taken the lease of the turn. -/
def Taken : Prop :=
  ∃ execution ∈ cluster.executions, execution.turnId = turnId ∧
    execution.history.leased.isSome = true

end Cluster

namespace ControlHistory

/-- What a handler awaits does the turn no harm. A handler that has read the row of the turn looks at
the clock within the stale threshold of that row's heartbeat, does not ask for the lease while the
execution is releasing it, and Redis does not fail it there; Codex refuses it no steer and no
interrupt; and the handler that has created the turn can enqueue it. -/
def spares (turnId : Nat) (cluster : Cluster) (history : ControlHistory) :
    Op → Option Fault → Bool
  | .clock, none => history.examined.all fun row =>
      row.id ≠ turnId || decide (cluster.world.now - row.heartbeatAt < Recovery.staleThreshold)
  | .leaseExists other, none => other ≠ turnId || !cluster.releasing turnId
  | .leaseExists other, some fault => other ≠ turnId || !fault.isRedisError
  | .enqueue other, some _ => other ≠ turnId
  | op, some fault => !(op.isControlRpc && fault.isStaleSidecarTurn) ||
      history.examined.all fun row => row.id ≠ turnId
  | _, none => true

/-- The record and the stage of a handler without grounds against the turn. -/
structure Groundless (turnId : Nat) (history : ControlHistory) (stage : HandlerStage) : Prop where
  stale : ∀ row ∈ history.stale, row.id ≠ turnId
  examined : ∀ row, history.examined = some row → row.id = turnId →
    history.dead = false ∧ history.rejected = false
  seen : ∀ row, stage.looked = some (some row) → history.examined = some row
  fresh : stage.looked = none → history.dead = false ∧ history.rejected = false
  created : history.created = some turnId → stage.created = some turnId

variable {prepared : PreparedRunTurn} {history : ControlHistory} {stage : HandlerStage}
  {self turnId : Nat} {cluster : Cluster} {op : Op}

/-- A handler that asks for the lease of a turn has read a row with its Codex ids. -/
theorem Groundless.examined_marked (h : history.Groundless turnId stage) {other : Nat}
    (hstage : stage.Allowed (.leaseExists other)) :
    ∃ row, history.examined = some row ∧ row.codexTurnId.isSome = true := by
  obtain ⟨row, hlooked, hmarked⟩ := hstage.marked rfl
  exact ⟨row, h.seen row hlooked, hmarked⟩

theorem Groundless.done (h : history.Groundless turnId stage)
    (hallowed : ControlAllowed (.handler prepared) history op) (hstage : stage.Allowed op)
    (hspares : history.spares turnId cluster op none = true)
    (hlive : op = .leaseExists turnId → (cluster.world.lease turnId).isSome = true) :
    (history.done op (cluster.world.perform self false op).1).Groundless turnId
      (stage.next op (.ok (cluster.world.perform self false op).1)) := by
  cases op with
  | getActiveForChat chatId =>
      have hfresh := h.fresh (hstage.look rfl)
      refine ⟨h.stale, fun _ _ _ => hfresh, fun row hlooked => ?_, fun _ => hfresh, h.created⟩
      exact Option.some.inj hlooked
  | getTurn other => rcases hallowed with hkind | ⟨_, hkind⟩ <;> cases hkind
  | findStaleActive => cases hstage.sweep
  | clock =>
      refine ⟨fun row hrow => ?_, h.examined, h.seen, h.fresh, h.created⟩
      rcases List.mem_append.mp hrow with hold | hnew
      · exact h.stale row hold
      · obtain ⟨hexamined, hstale⟩ := List.mem_filter.mp hnew
        rw [Option.mem_toList] at hexamined
        intro hid
        have hyoung : cluster.world.now - row.heartbeatAt < Recovery.staleThreshold := by
          simpa [spares, Option.mem_def.mp hexamined, hid] using hspares
        exact absurd (of_decide_eq_true hstale) (Nat.not_le_of_lt hyoung)
  | leaseExists other =>
      obtain ⟨found, hseen, hother⟩ := hallowed
      refine ⟨h.stale, fun row hrow hid => ?_, h.seen, fun hlooked => ?_, h.created⟩
      · have hrow : history.examined = some row := hrow
        obtain rfl := Option.some.inj (hseen.symm.trans hrow)
        obtain ⟨hdead, hrejected⟩ := h.examined found hseen hid
        obtain rfl : other = turnId := hother.symm.trans hid
        exact ⟨by simp [ControlHistory.done, World.perform, hdead, hlive rfl], hrejected⟩
      · have hchecked := hstage.check (.inl rfl)
        rw [show stage.looked = none from hlooked] at hchecked
        cases hchecked
  | createTurn payload =>
      refine ⟨h.stale, h.examined, ?_, ?_, fun hcreated => ?_⟩
      · cases (cluster.world.perform self false (.createTurn payload)).1 <;> exact h.seen
      · cases (cluster.world.perform self false (.createTurn payload)).1 <;> exact h.fresh
      · obtain ⟨row, hanswer, rfl⟩ := Option.map_eq_some_iff.mp hcreated
        rw [hanswer]
        rfl
  | enqueue other =>
      exact ⟨h.stale, h.examined, h.seen, h.fresh, fun hcreated => by cases hcreated⟩
  | activeLeases => cases hallowed
  | _ => exact ⟨h.stale, h.examined, h.seen, h.fresh, h.created⟩

theorem Groundless.fault (h : history.Groundless turnId stage)
    (hallowed : ControlAllowed (.handler prepared) history op) (hstage : stage.Allowed op)
    {failure : Fault} (hspares : history.spares turnId cluster op (some failure) = true) :
    (history.fault op failure).Groundless turnId (stage.next op (.error failure)) := by
  have hlook : (stage.next op (.error failure)).looked = none → stage.looked = none := by
    cases op with
    | getActiveForChat =>
        intro hlooked
        cases hlooked
    | _ => exact fun hlooked => hlooked
  refine ⟨h.stale, fun row hrow hid => ?_, fun row hlooked => ?_, fun hlooked => ?_,
    fun hcreated => ?_⟩
  · obtain ⟨hdead, hrejected⟩ := h.examined row hrow hid
    replace hrow : history.examined = some row := hrow
    have hchecked : (op.isLeaseCheck && failure.isRedisError) = false ∧
        (op.isControlRpc && failure.isStaleSidecarTurn) = false := by
      cases op with
      | leaseExists other =>
          obtain ⟨seen, hseen, hother⟩ := hallowed
          obtain rfl := Option.some.inj (hseen.symm.trans hrow)
          simpa [spares, ← hother, hid, Op.isLeaseCheck, Op.isControlRpc] using hspares
      | enqueue => exact ⟨rfl, rfl⟩
      | _ =>
          refine ⟨rfl, ?_⟩
          rw [Bool.and_eq_false_iff]
          simpa [spares, hrow, hid] using hspares
    simp [ControlHistory.fault, hdead, hrejected, hchecked.1, hchecked.2]
  · refine h.seen row ?_
    cases op with
    | getActiveForChat => cases hlooked
    | _ => exact hlooked
  · have hnone := hlook hlooked
    obtain ⟨hdead, hrejected⟩ := h.fresh hnone
    have hunchecked : op.isLeaseCheck = false ∧ op.isControlRpc = false := by
      have hquiet : ¬ (op.isLeaseCheck = true ∨ op.isControlRpc = true) := fun hcheck => by
        have hchecked := hstage.check hcheck
        rw [hnone] at hchecked
        cases hchecked
      exact ⟨Bool.eq_false_iff.mpr fun hcheck => hquiet (.inl hcheck),
        Bool.eq_false_iff.mpr fun hcheck => hquiet (.inr hcheck)⟩
    simp [ControlHistory.fault, hdead, hrejected, hunchecked.1, hunchecked.2]
  · -- a turn that has been created is enqueued next, and that does not fail
    obtain rfl := hstage.enqueued turnId (h.created hcreated)
    simp [spares] at hspares

end ControlHistory

/-- A handler without grounds against the turn, which knows its Codex ids only if an execution has
taken its lease. -/
structure Control.Groundless (turnId : Nat) (cluster : Cluster) (control : Control) : Prop where
  kind : ∃ prepared, control.kind = .handler prepared
  stage : ∃ stage, control.program.wp stageMonitor (fun out _ _ => nomatch out) (fun _ _ => True)
    stage ∧ control.history.Groundless turnId stage
  taken : ∀ row, control.history.examined = some row → row.id = turnId →
    row.codexTurnId.isSome = true → cluster.Taken turnId

/-- The turn is delivered once, and handlers alone act from outside. Until the execution has executed
`finalize_once` the lease of the turn does not expire, and what a handler awaits does it no harm. -/
def Cluster.spared (turnId : Nat) (cluster : Cluster) (action : ClusterAction) : Bool :=
  match action with
  | .deliver cfg _ => cfg.turnId ≠ turnId || cluster.undelivered turnId
  | .spawn (.handler _) => true
  | .spawn _ => false
  | .tick => cluster.settled turnId || cluster.lasts turnId .tick
  | .control id raised => cluster.settled turnId || (cluster.controls[id]?).all fun control =>
      control.program.op.all fun op => control.history.spares turnId cluster op raised
  | _ => true

section

variable {cluster next : Cluster} {action : ClusterAction} {control later : Control}
  {self id turnId : Nat} {world world' : World} {op : Op} {raised : Option Fault}
  {execution : Execution}

theorem Cluster.settled_eq_false (h : cluster.settled turnId = false)
    (hexecution : cluster.executions[id]? = some execution) (hturn : execution.turnId = turnId) :
    execution.history.requested = none := by
  have hopen := List.any_eq_false.mp h execution (List.mem_of_getElem? hexecution)
  simpa [hturn] using hopen

/-- The record of an execution after a step. -/
theorem Cluster.Steps.history_after (h : cluster.Steps action next)
    (hexecution : cluster.executions[id]? = some execution) :
    ∃ after, next.executions[id]? = some after ∧ after.cfg = execution.cfg ∧
      (after.history = execution.history ∨ ∃ op raised,
        execution.Awaits id cluster.world op raised after next.world) := by
  obtain ⟨after, hafter, hcfg⟩ := h.cfg_kept hexecution
  refine ⟨after, hafter, hcfg, ?_⟩
  cases h.continues hafter with
  | started cfg again haction hqueue hid =>
      have hlt := (List.getElem?_eq_some_iff.mp hexecution).1
      omega
  | advanced before op raised haction hbefore hawaits =>
      obtain rfl := Option.some.inj (hexecution.symm.trans hbefore)
      exact .inr ⟨op, raised, hawaits⟩
  | kept before haction hbefore hkept hprogram hhistory =>
      obtain rfl := Option.some.inj (hexecution.symm.trans hbefore)
      exact .inl hhistory

/-- A lease that has been taken stays on record, and so does the outcome. -/
theorem Execution.Awaits.records {after : Execution}
    (h : execution.Awaits self world op raised after world') (hconforms : execution.Conforms) :
    (execution.history.leased.isSome = true → after.history.leased.isSome = true) ∧
      (execution.history.requested.isSome = true → after.history.requested.isSome = true) := by
  have hallowed := h.allowed hconforms
  have hleased : execution.history.leased.isSome = true → op.isLeaseAcquisition = false := by
    intro htaken
    cases op with
    | setLeaseNx =>
        have hnone : execution.history.leased = none := hallowed.2.2.1
        rw [hnone] at htaken
        cases htaken
    | _ => rfl
  cases h with
  | raised failure rest hprogram => exact ⟨fun htaken => htaken, fun hasked => hasked⟩
  | answered rest hprogram =>
      refine ⟨fun htaken => ?_, fun hasked => ?_⟩
      · exact (congrArg Option.isSome (ExecHistory.next_leased (hleased htaken) (.ok _))).trans htaken
      · by_cases hfinal : op.isFinalize = true
        · cases op with
          | finalizeOnce => rfl
          | _ => cases hfinal
        · exact (congrArg Option.isSome
            (ExecHistory.done_requested (by simpa using hfinal))).trans hasked

theorem Cluster.Steps.taken (h : cluster.Steps action next) (hconforms : cluster.Conforms)
    (htaken : cluster.Taken turnId) : next.Taken turnId := by
  obtain ⟨execution, hmem, hturn, hleased⟩ := htaken
  obtain ⟨id, hexecution⟩ := List.mem_iff_getElem?.mp hmem
  obtain ⟨after, hafter, hcfg, hrecord⟩ := h.history_after hexecution
  refine ⟨after, List.mem_of_getElem? hafter,
    (congrArg ExecConfig.turnId hcfg).trans hturn, ?_⟩
  rcases hrecord with hsame | ⟨op, raised, hawaits⟩
  · rw [hsame]
    exact hleased
  · exact (hawaits.records (hconforms.executions _ hmem)).1 hleased

theorem Cluster.Steps.unsettled (h : cluster.Steps action next) (hconforms : cluster.Conforms)
    (hopen : next.settled turnId = false) : cluster.settled turnId = false := by
  refine List.any_eq_false.mpr fun execution hmem hasked => ?_
  obtain ⟨hturn, hasked⟩ := (Bool.and_eq_true _ _).mp hasked
  obtain ⟨id, hexecution⟩ := List.mem_iff_getElem?.mp hmem
  obtain ⟨after, hafter, hcfg, hrecord⟩ := h.history_after hexecution
  have hnone := Cluster.settled_eq_false hopen hafter
    ((congrArg ExecConfig.turnId hcfg).trans (of_decide_eq_true hturn))
  have hsome : after.history.requested.isSome = true := by
    rcases hrecord with hsame | ⟨op, raised, hawaits⟩
    · rw [hsame]
      exact hasked
    · exact (hawaits.records (hconforms.executions _ hmem)).2 hasked
  rw [hnone] at hsome
  cases hsome

/-- Until the execution releases it, a turn that has had its lease taken has one. -/
theorem Cluster.Leases.live (h : cluster.Leases turnId) (hopen : cluster.settled turnId = false)
    (hreleasing : cluster.releasing turnId = false) (htaken : cluster.Taken turnId) :
    (cluster.world.lease turnId).isSome = true := by
  obtain ⟨execution, hmem, hturn, hleased⟩ := htaken
  obtain ⟨id, hexecution⟩ := List.mem_iff_getElem?.mp hmem
  have hnone := Cluster.settled_eq_false hopen hexecution hturn
  have hheld := List.any_eq_false.mp hreleasing execution hmem
  exact (h.own id execution hexecution hturn).live hleased (by simpa [hturn, hnone] using hheld)

/-- Who finds the row of the turn with its Codex ids finds it after the lease was taken. -/
theorem Cluster.Leases.taken_of_found (h : cluster.Leases turnId) (hindexed : cluster.world.Indexed)
    {chatId : Nat} {row : TurnRow} (hrow : cluster.world.activeForChat chatId = some row)
    (hid : row.id = turnId) (hmarked : row.codexTurnId.isSome = true) : cluster.Taken turnId := by
  have hkey : cluster.world.turns turnId = some row := hid ▸ hindexed.of_active hrow
  by_cases hsome : ∃ execution ∈ cluster.executions, execution.turnId = turnId
  · obtain ⟨execution, hmem, hturn⟩ := hsome
    obtain ⟨id, hexecution⟩ := List.mem_iff_getElem?.mp hmem
    exact ⟨execution, hmem, hturn,
      (h.own id execution hexecution hturn).marked row hkey hmarked⟩
  · have hunmarked := h.fresh (fun execution hmem hturn => hsome ⟨execution, hmem, hturn⟩) row hkey
    exact absurd (hunmarked.symm.trans hmarked) Bool.false_ne_true

theorem Control.start_groundless (prepared : PreparedRunTurn) :
    (Control.start (.handler prepared)).Groundless turnId cluster where
  kind := ⟨prepared, rfl⟩
  stage := ⟨{}, Handler.runTurn_stage prepared,
    ⟨fun _ hrow => absurd hrow List.not_mem_nil, fun _ hrow => (by cases hrow),
      fun _ hlooked => (by cases hlooked), fun _ => ⟨rfl, rfl⟩, fun hcreated => by cases hcreated⟩⟩
  taken _ hrow := by cases hrow

/-- Without grounds the turn is not finalised. -/
theorem Control.Groundless.leavesStatus (h : control.Groundless turnId cluster)
    (hconforms : control.Conforms) (hop : control.program.op = some op) :
    op.leavesStatus turnId := by
  obtain ⟨next, hprogram⟩ := Thread.op_eq_some hop
  have hallowed := hconforms.allowed hop
  obtain ⟨prepared, hkind⟩ := h.kind
  obtain ⟨stage, hstage, hgroundless⟩ := h.stage
  rw [hprogram] at hstage
  cases op with
  | finalizeOnce other status errorCode errorDetail =>
      rintro rfl
      have hgrounds : Grounds control.kind control.history other := hallowed.2.1
      rw [hkind] at hgrounds
      rcases hgrounds with ⟨row, hrow, hid⟩ | ⟨row, hrow, hid, hbad⟩ | hown
      · exact hgroundless.stale row hrow hid
      · obtain ⟨hdead, hrejected⟩ := hgroundless.examined row hrow hid
        simp [hdead, hrejected] at hbad
      · cases hstage.1.enqueued other (hgroundless.created hown)
  | _ => trivial

/-- A step that does the turn no harm. -/
theorem Control.Groundless.step (h : control.Groundless turnId cluster)
    (hconforms : control.Conforms) (hindexed : cluster.world.Indexed)
    (hleases : cluster.Leases turnId) (hopen : cluster.settled turnId = false)
    (hspares : control.history.spares turnId cluster op raised = true)
    (hawaits : control.Awaits self cluster.world op raised later world')
    (hlater : cluster.Taken turnId → next.Taken turnId) : later.Groundless turnId next := by
  have hallowed := hawaits.allowed hconforms
  obtain ⟨prepared, hkind⟩ := h.kind
  obtain ⟨stage, hstage, hgroundless⟩ := h.stage
  rw [hkind] at hallowed
  cases hawaits with
  | answered rest hprogram =>
      rw [hprogram] at hstage
      have hlive : op = .leaseExists turnId → (cluster.world.lease turnId).isSome = true := by
        rintro rfl
        obtain ⟨row, hrow, hid⟩ := hallowed
        obtain ⟨found, hfound, hmarked⟩ := hgroundless.examined_marked hstage.1
        obtain rfl := Option.some.inj (hrow.symm.trans hfound)
        have hreleasing : cluster.releasing turnId = false := by
          simpa [ControlHistory.spares] using hspares
        exact hleases.live hopen hreleasing (h.taken row hrow hid hmarked)
      refine ⟨⟨prepared, hkind⟩, ⟨_, hstage.2 (.ok _),
        hgroundless.done hallowed hstage.1 hspares hlive⟩, fun row hrow hid hmarked => ?_⟩
      cases op with
      | getActiveForChat chatId => exact hlater (hleases.taken_of_found hindexed hrow hid hmarked)
      | getTurn other => rcases hallowed with hkind | ⟨_, hkind⟩ <;> cases hkind
      | _ => exact hlater (h.taken row hrow hid hmarked)
  | raised failure rest hprogram =>
      rw [hprogram] at hstage
      exact ⟨⟨prepared, hkind⟩, ⟨_, hstage.2 (.error failure),
        hgroundless.fault hallowed hstage.1 hspares⟩,
        fun row hrow hid hmarked => hlater (h.taken row hrow hid hmarked)⟩

/-! ### Along a run -/

/-- Before the outcome the lease is there while it has to be, and no handler has grounds against the
turn. -/
structure Cluster.Undecided (turnId : Nat) (cluster : Cluster) : Prop where
  leases : cluster.Leases turnId
  groundless : ∀ control ∈ cluster.controls, control.Groundless turnId cluster

structure Cluster.Guarded (turnId : Nat) (cluster : Cluster) : Prop where
  faithful : cluster.Faithful turnId
  handlers : ∀ control ∈ cluster.controls, ∃ prepared, control.kind = .handler prepared
  undecided : cluster.settled turnId = false → cluster.Undecided turnId

/-- Nobody else finalises the turn but after its execution has. -/
theorem Cluster.Guarded.alone (h : cluster.Guarded turnId) (hconforms : cluster.Conforms)
    (hspared : cluster.spared turnId action = true) : cluster.alone turnId action = true := by
  cases action with
  | deliver cfg again => exact hspared
  | control id raised =>
      cases raised with
      | some failure => rfl
      | none =>
          cases hop : cluster.op (.control id none) with
          | none => simp [Cluster.alone, hop]
          | some op =>
              cases op with
              | finalizeOnce other =>
                  simp only [Cluster.alone, hop, Bool.or_eq_true]
                  obtain ⟨control, hcontrol, hnext⟩ := Option.bind_eq_some_iff.mp hop
                  have hmember := List.mem_of_getElem? hcontrol
                  cases hsettled : cluster.settled turnId with
                  | false =>
                      have hgroundless := (h.undecided hsettled).groundless control hmember
                      have hother : other ≠ turnId :=
                        hgroundless.leavesStatus (hconforms.controls control hmember) hnext
                      exact .inl (by simpa using hother)
                  | true =>
                      obtain ⟨execution, hmem, hasked⟩ := List.any_eq_true.mp hsettled
                      obtain ⟨hturn, hasked⟩ := (Bool.and_eq_true _ _).mp hasked
                      obtain ⟨id, hexecution⟩ := List.mem_iff_getElem?.mp hmem
                      obtain ⟨row, hrow, -, hstatus⟩ :=
                        (h.faithful.own id execution hexecution (of_decide_eq_true hturn)).row
                      obtain ⟨⟨status, won⟩, hrequested⟩ := Option.isSome_iff_exists.mp hasked
                      exact .inr (by simp [hrow, hstatus status won hrequested, status.property])
              | _ => simp [Cluster.alone, hop]
  | _ => rfl

theorem Cluster.Undecided.step (h : cluster.Undecided turnId) (hconforms : cluster.Conforms)
    (hindexed : cluster.world.Indexed)
    (hordered : ∀ (id : Nat) execution, cluster.executions[id]? = some execution →
      execution.Ordered) (hopen : cluster.settled turnId = false)
    (hspared : cluster.spared turnId action = true) (hsteps : cluster.Steps action next) :
    next.Undecided turnId := by
  refine ⟨h.leases.step hconforms hordered ?_ ?_ ?_ hsteps, fun control hmem => ?_⟩
  · rintro cfg again rfl hturn
    simpa [Cluster.spared, hturn] using hspared
  · cases action with
    | tick => simpa [Cluster.spared, hopen] using hspared
    | _ => rfl
  · rintro control hmem holder hkind
    obtain ⟨prepared, hhandler⟩ := (h.groundless control hmem).kind
    cases hkind.symm.trans hhandler
  · obtain ⟨id, hcontrol⟩ := List.mem_iff_getElem?.mp hmem
    have hlater : cluster.Taken turnId → next.Taken turnId := hsteps.taken hconforms
    cases hsteps.controls hcontrol with
    | started kind haction hnotice hid hstarted =>
        subst haction hstarted
        cases kind with
        | handler prepared => exact Control.start_groundless prepared
        | _ => cases hspared
    | advanced before op raised haction hbefore hawaits =>
        subst haction
        have hmember := List.mem_of_getElem? hbefore
        obtain ⟨rest, hprogram⟩ := hawaits.program_eq
        have hspares : before.history.spares turnId cluster op raised = true := by
          simpa [Cluster.spared, hopen, hbefore, hprogram, Thread.op] using hspared
        exact (h.groundless before hmember).step (hconforms.controls before hmember) hindexed
          h.leases hopen hspares hawaits hlater
    | kept before haction hbefore hkind hprogram hhistory =>
        obtain ⟨hhandler, hstage, htaken⟩ := h.groundless before (List.mem_of_getElem? hbefore)
        refine ⟨hkind ▸ hhandler, by rw [hprogram, hhistory]; exact hstage, ?_⟩
        rw [hhistory]
        exact fun row hrow hid hmarked => hlater (htaken row hrow hid hmarked)

theorem Cluster.Guarded.step (h : cluster.Guarded turnId) (hconforms : cluster.Conforms)
    (htimed : cluster.world.Timed) (hrowed : cluster.Rowed) (hindexed : cluster.world.Indexed)
    (hordered : ∀ (id : Nat) execution, cluster.executions[id]? = some execution →
      execution.Ordered)
    (hallowed : cluster.spared turnId action = true ∧ cluster.calm turnId action = true)
    (hsteps : cluster.Steps action next) : next.Guarded turnId := by
  refine ⟨?_, fun control hmem => ?_, fun hlater => ?_⟩
  · exact h.faithful.step hconforms htimed hrowed
      ⟨h.alone hconforms hallowed.1, hallowed.2⟩ hsteps
  · obtain ⟨id, hcontrol⟩ := List.mem_iff_getElem?.mp hmem
    cases hsteps.controls hcontrol with
    | started kind haction hnotice hid hstarted =>
        subst haction hstarted
        cases kind with
        | handler prepared => exact ⟨prepared, rfl⟩
        | _ => cases hallowed.1
    | advanced before op raised haction hbefore hawaits =>
        rw [hawaits.kind_eq]
        exact h.handlers before (List.mem_of_getElem? hbefore)
    | kept before haction hbefore hkind =>
        rw [hkind]
        exact h.handlers before (List.mem_of_getElem? hbefore)
  · have hopen := hsteps.unsettled hconforms hlater
    exact (h.undecided hopen).step hconforms hindexed hordered hopen hallowed.1 hsteps

theorem reach_guarded {users : Nat → Bool}
    (hreach : Reach Cluster.step (fun cluster action =>
      cluster.spared turnId action = true ∧ cluster.calm turnId action = true)
      (Cluster.init users) cluster) : cluster.Guarded turnId := by
  refine hreach.invariant_with (Cluster.Guarded turnId) (fun hbefore =>
    And.intro (reach_conforms hbefore) (And.intro (reach_timed hbefore)
      (And.intro (reach_rowed hbefore) (And.intro (reach_indexed hbefore) (reach_ordered hbefore)))))
    ?_ ?_
  · exact ⟨Cluster.init_faithful users, fun _ hmem => absurd hmem List.not_mem_nil,
      fun _ => ⟨Cluster.init_leases users, fun _ hmem => absurd hmem List.not_mem_nil⟩⟩
  · intro before action after hknown h hallowed hstep
    obtain ⟨hconforms, htimed, hrowed, hindexed, hordered⟩ := hknown
    exact h.step hconforms htimed hrowed hindexed hordered hallowed (Cluster.steps_of_step hstep)

/-- **A published done wins.** While what the handlers await does the turn no harm, the row is active
from the done frame until the execution has finalised it, and COMPLETED from then on. -/
theorem published_done_wins {users : Nat → Bool}
    (hreach : Reach Cluster.step (fun cluster action =>
      cluster.spared turnId action = true ∧ cluster.calm turnId action = true)
      (Cluster.init users) cluster) {id : Nat} {execution : Execution}
    (hexecution : cluster.executions[id]? = some execution) (hturn : execution.turnId = turnId)
    (hleased : execution.history.leased.isSome = true)
    (hdone : ∃ event ∈ cluster.world.streams turnId, event.isDone = true) :
    ∃ row, cluster.world.turns turnId = some row ∧
      (execution.history.requested = none → row.status.isActive = true) ∧
      (execution.history.requested.isSome = true → row.status = .completed) ∧
      (execution.program.ended = true → row.status = .completed) := by
  have hfaithful := (reach_guarded hreach).faithful
  have hagrees := hfaithful.own id execution hexecution hturn
  obtain ⟨row, hrow, hactive, hstatus⟩ := hagrees.row
  refine ⟨row, hrow, hactive, fun hrequested => ?_, fun hended => ?_⟩
  · obtain ⟨⟨status, won⟩, hrequested⟩ := Option.isSome_iff_exists.mp hrequested
    have hhas : execution.history.hasDone = true := by
      rw [hagrees.stream] at hdone
      exact List.any_eq_true.mpr hdone
    rw [hstatus status won hrequested, (hagrees.completed status won hrequested).mpr hhas]
    rfl
  · obtain ⟨after, hafter, hcompleted, _⟩ :=
      hfaithful.ended (reach_conforms hreach) hexecution hturn hleased hended
    obtain rfl := Option.some.inj (hrow.symm.trans hafter)
    exact hcompleted.mp hdone

end

/-! ### A handler after the lease is released -/

/-- A request for the chat while the turn is answered, after this many awaits of its execution. -/
def interrupted (awaits : Nat) : List ClusterAction :=
  List.replicate awaits (.advance 0 none) ++
    .spawn (.handler ⟨1, 1, 2, .admin, false, false, false, ""⟩) ::
      List.replicate 4 (.control 1 none) ++ List.replicate (32 - awaits) (.advance 0 none)

theorem published_done_wins_answered : ∃ cluster, executedRun (interrupted 25) = some cluster ∧
    cluster.outcome = ([(false, false), (true, false)], some .completed, [true]) ∧
    ∃ row, cluster.world.turns 1 = some row ∧ row.status = .completed := by
  have hallowed : RunAllowed Cluster.step (fun cluster action =>
      cluster.spared 1 action = true ∧ cluster.calm 1 action = true) (Cluster.init fun _ => true)
      (executedTurn (interrupted 25)) := by decide
  have hseen : (executedRun (interrupted 25)).map (fun cluster => (cluster.outcome,
      cluster.executions.map fun execution =>
        (execution.turnId, execution.history.leased.isSome, execution.program.ended))) =
      some (([(false, false), (true, false)], some .completed, [true]), [(1, true, true)]) := by
    decide
  obtain ⟨cluster, hrun, hcluster⟩ := Option.map_eq_some_iff.mp hseen
  obtain ⟨houtcome, hexecutions⟩ := Prod.mk.inj hcluster
  obtain ⟨execution, hsingle, hexecution⟩ := List.map_eq_singleton_iff.mp hexecutions
  obtain ⟨hturn, hends⟩ := Prod.mk.inj hexecution
  obtain ⟨hleased, hended⟩ := Prod.mk.inj hends
  have hmember : cluster.executions[0]? = some execution := by
    rw [hsingle]
    rfl
  have hdone : ∃ event ∈ cluster.world.streams 1, event.isDone = true := by
    have hframes : ((cluster.world.streams 1).map fun event => (event.isDone, event.isError)) =
        [(false, false), (true, false)] := (Prod.mk.inj houtcome).1
    obtain ⟨event, hevent, hmarks⟩ := List.mem_map.mp
      (hframes ▸ (by decide : (true, false) ∈ [(false, false), (true, false)]))
    exact ⟨event, hevent, (Prod.mk.inj hmarks).1⟩
  obtain ⟨row, hrow, _, _, hcompleted⟩ :=
    published_done_wins (reach_of_run hrun hallowed) hmember hturn hleased hdone
  exact ⟨cluster, hrun, houtcome, row, hrow, hcompleted hended⟩

/-- The handler finds the lease released and fails the turn, whose done frame is in the stream. -/
theorem published_done_loses : (executedRun (interrupted 30)).map Cluster.outcome =
    some ([(false, false), (true, false)], some .failed, [true]) := by
  decide

end CodexServer
