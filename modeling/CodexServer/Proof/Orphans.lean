import CodexServer.Proof.DeadTurns
import CodexServer.Proof.HeldLease

/-!
# Turns that nobody attends to

An active turn that was enqueued is attended to while the queue has a delivery of it, an execution
works on it, its lease is there, or its expiry is announced to the listener. Each of them hands the
turn on before it goes, with two exceptions: an execution that finds the chat lock with its own turn in
it takes another one for the owner, and there may be none; and Redis forgets a message that no listener
gets.
-/

open Async Transition

namespace CodexServer

/-! ### Who attends to a turn -/

/-- The execution has neither come to its end nor left the turn to another one. -/
def Execution.works (turnId : Nat) (execution : Execution) : Bool :=
  decide (execution.turnId = turnId) && execution.live && !execution.history.skipped

namespace Cluster

variable (turnId : Nat) (cluster : Cluster)

def attended : Bool :=
  cluster.world.queue turnId || cluster.executions.any (Execution.works turnId) ||
    (cluster.world.lease turnId).isSome || cluster.announced turnId

/-- PostgreSQL and Redis succeed. -/
def steady (action : ClusterAction) : Bool :=
  action.raised.isNone || (cluster.op action).all Op.isExternal

/-- A process that has died does not shut down. -/
def shutsDown : ClusterAction → Bool
  | .spawn (.shutdown holder) => cluster.executions.all fun execution =>
      execution.running || execution.cfg.holder ≠ holder
  | _ => true

/-- An execution that finds its own turn in the chat lock is not the only one to attend to it. -/
def yields : ClusterAction → Bool
  | .advance id none => (cluster.executions[id]?).all fun execution =>
      (execution.program.op).all fun
        | .getActive chatId =>
            (cluster.world.active chatId).map StoreEntry.value ≠ some turnId ||
              { cluster with executions := cluster.executions.eraseIdx id }.attended turnId
        | _ => true
  | _ => true

/-- A listener gets every message about the lease of the turn, and its process does not end with one
in hand. -/
def keepsNotices : ClusterAction → Bool
  | .miss target _ => target ≠ turnId
  | .quit id => (cluster.controls[id]?).all fun control => !control.hears turnId
  | _ => true

end Cluster

section

variable {cluster next : Cluster} {action : ClusterAction} {turnId : Nat} {world : World} {self : Nat}
  {lost : Bool} {op : Op}

theorem Execution.works_iff {execution : Execution} : execution.works turnId = true ↔
    execution.turnId = turnId ∧ execution.live = true ∧ execution.history.skipped = false := by
  simp [Execution.works, and_assoc]

theorem Cluster.attended_iff : cluster.attended turnId = true ↔
    cluster.world.queue turnId = true ∨
      (∃ execution ∈ cluster.executions, execution.works turnId = true) ∨
      (cluster.world.lease turnId).isSome = true ∨ cluster.announced turnId = true := by
  simp [Cluster.attended, List.any_eq_true, or_assoc]

/-! ### The users of the turns -/

theorem World.users_kept : (world.perform self lost op).2.users = world.users := by
  have heffect := perform_effect world self lost op
  generalize (world.perform self lost op).2 = after at heffect ⊢
  cases heffect <;> rfl

/-- Every turn is one of a user that is there. -/
def World.Peopled (world : World) : Prop :=
  ∀ turnId row, world.turns turnId = some row → world.users row.userId = true

theorem World.Peopled.perform (h : world.Peopled) (htimed : world.Timed) :
    (world.perform self lost op).2.Peopled := by
  intro turnId after hafter
  rw [World.users_kept]
  have hstep : RowStep world op turnId (world.turns turnId)
      ((world.perform self lost op).2.turns turnId) := perform_row
  rw [hafter] at hstep
  generalize hbefore : world.turns turnId = before at hstep
  generalize hlater : some after = later at hstep
  cases hstep with
  | unchanged => exact h turnId after (hbefore.trans hlater.symm)
  | updated statement hstatement happly =>
      obtain rfl := Option.some.inj hlater
      have hleads := TurnUpdate.apply_leads hstatement happly (htimed.heartbeat turnId _ hbefore)
      rw [hleads.1.userId]
      exact h turnId _ hbefore
  | created _ payload hop huser hturn =>
      obtain rfl := Option.some.inj hlater
      exact huser

theorem Cluster.Steps.users_kept (hsteps : cluster.Steps action next) :
    next.world.users = cluster.world.users := by
  generalize hworld : next.world = world
  have hshared := hsteps.shared
  rw [hworld] at hshared
  cases hshared with
  | tick | bookkeeping => rfl
  | performed => exact World.users_kept

theorem reach_peopled {Allowed : Cluster → ClusterAction → Prop} {users : Nat → Bool}
    (hreach : Reach Cluster.step Allowed (Cluster.init users) cluster) : cluster.world.Peopled := by
  refine hreach.invariant_with (fun cluster => cluster.world.Peopled) reach_timed (fun _ _ => nofun)
    fun before action after htimed h _ hstep => ?_
  generalize hworld : after.world = world
  have hshared := (Cluster.steps_of_step hstep).shared
  rw [hworld] at hshared
  cases hshared with
  | tick | bookkeeping => exact h
  | performed => exact h.perform htimed

/-! ### The records of the executions -/

/-- A turn that is finalised is decided. -/
theorem World.finalizeOnce_decided {status : TerminalStatus} {errorCode errorDetail : Option String}
    (hrow : (world.turns turnId).isSome) :
    (world.perform self lost (.finalizeOnce turnId status errorCode errorDetail)).2.decided turnId =
      true := by
  obtain ⟨row, hrow⟩ := Option.isSome_iff_exists.mp hrow
  by_cases hterminal : row.status.isTerminal = true
  · simp [World.perform, World.updateTurn, hrow, TurnRow.finalizeOnce, World.decided, hterminal]
  · have hactive : row.status.isActive = true := by simpa using hterminal
    obtain ⟨_, after, hafter, hstatus, _⟩ := World.finalizeOnce_row hrow hactive
    exact (Option.any_eq_true ..).mpr ⟨after, hafter, hstatus ▸ status.property⟩

/-- What an execution has on record while PostgreSQL and Redis succeed. -/
structure ExecHistory.Sees (world : World) (turnId : Nat) (history : ExecHistory) : Prop where
  faultless : history.faulted = false
  there : history.found ≠ some none
  user : ∀ row, history.found = some (some row) → world.users row.userId = true
  terminal : ∀ row, history.found = some (some row) → row.status.isTerminal = true →
    world.decided turnId = true
  known : history.user ≠ some false
  requested : history.requested.isSome = true → world.decided turnId = true

theorem ExecHistory.sees_start : ExecHistory.Sees world turnId {} where
  faultless := rfl
  there h := by cases h
  user _ h := by cases h
  terminal _ h := by cases h
  known h := by cases h
  requested h := by cases h

theorem ExecHistory.Sees.step {history : ExecHistory} (h : history.Sees cluster.world turnId)
    (hsteps : cluster.Steps action next) (htimed : cluster.world.Timed) :
    history.Sees next.world turnId where
  faultless := h.faultless
  there := h.there
  user row hrow := by
    rw [hsteps.users_kept]
    exact h.user row hrow
  terminal row hrow hterminal := hsteps.decided htimed (h.terminal row hrow hterminal)
  known := h.known
  requested hrequested := hsteps.decided htimed (h.requested hrequested)

theorem ExecHistory.Sees.congr {history other : ExecHistory} (h : history.Sees world turnId)
    (hfaulted : other.faulted = history.faulted) (hfound : other.found = history.found)
    (huser : other.user = history.user) (hrequested : other.requested = history.requested) :
    other.Sees world turnId where
  faultless := hfaulted.trans h.faultless
  there := hfound ▸ h.there
  user row hrow := h.user row (hfound ▸ hrow)
  terminal row hrow := h.terminal row (hfound ▸ hrow)
  known := huser ▸ h.known
  requested hsome := h.requested (hrequested ▸ hsome)

/-- An answer that an execution sees. -/
theorem ExecHistory.Sees.done {cfg : ExecConfig} {history : ExecHistory}
    (h : history.Sees world cfg.turnId)
    (hafter : history.Sees (world.perform self lost op).2 cfg.turnId)
    (hrow : (world.turns cfg.turnId).isSome) (hpeopled : world.Peopled)
    (hallowed : ExecAllowed cfg history op) :
    (history.done cfg.turnId op (world.perform self lost op).1).Sees
      (world.perform self lost op).2 cfg.turnId := by
  cases op with
  | getTurn target =>
      obtain rfl : target = cfg.turnId := hallowed
      obtain ⟨row, hfound⟩ := Option.isSome_iff_exists.mp hrow
      have hread : (world.perform self lost (.getTurn cfg.turnId)).1 = some row := hfound
      refine ⟨hafter.faultless, ?_, ?_, ?_, hafter.known, hafter.requested⟩
      · simp only [ExecHistory.done, hread]
        exact fun hnone => by cases hnone
      · intro other hother
        simp only [ExecHistory.done, hread] at hother
        obtain rfl := Option.some.inj (Option.some.inj hother)
        exact hpeopled _ _ hfound
      · intro other hother hterminal
        simp only [ExecHistory.done, hread] at hother
        obtain rfl := Option.some.inj (Option.some.inj hother)
        exact (Option.any_eq_true ..).mpr ⟨_, hfound, hterminal⟩
  | getUser userId =>
      obtain ⟨row, hfound, rfl⟩ := hallowed
      refine ⟨hafter.faultless, hafter.there, hafter.user, hafter.terminal, ?_, hafter.requested⟩
      have hthere : (world.perform self lost (.getUser row.userId)).1 = true := h.user row hfound
      simp only [ExecHistory.done, hthere]
      exact fun hfalse => by cases hfalse
  | finalizeOnce target status errorCode errorDetail =>
      obtain rfl := hallowed.1
      exact ⟨hafter.faultless, hafter.there, hafter.user, hafter.terminal, hafter.known,
        fun _ => World.finalizeOnce_decided hrow⟩
  | nextNote note => cases note <;> exact hafter.congr rfl rfl rfl rfl
  | external call =>
      cases call with
      | startTurn reply => cases reply <;> exact hafter.congr rfl rfl rfl rfl
      | _ => exact hafter.congr rfl rfl rfl rfl
  | _ => exact hafter.congr rfl rfl rfl rfl

theorem Cluster.steady_external (hsteady : cluster.steady action = true)
    (hop : cluster.op action = some op) {failure : Fault} (hraised : action.raised = some failure) :
    op.isExternal = true := by
  simpa [Cluster.steady, hop, hraised] using hsteady

/-- The records of the executions of a turn. -/
abbrev Cluster.Sees (cluster : Cluster) : Prop :=
  cluster.Records fun world _ cfg history => history.Sees world cfg.turnId

theorem Cluster.Sees.step (h : cluster.Sees) (hconforms : cluster.Conforms)
    (htimed : cluster.world.Timed) (hrowed : cluster.Rowed) (hpeopled : cluster.world.Peopled)
    (hsteady : cluster.steady action = true) (hsteps : cluster.Steps action next) : next.Sees := by
  refine Cluster.Records.step h hsteps (fun cfg _ => ExecHistory.sees_start) ?_ ?_
  · exact fun _ _ _ _ hsees => ExecHistory.Sees.step hsees hsteps htimed
  · intro id execution after op raised haction hexecution hawaits hsees
    subst haction
    have hafter := ExecHistory.Sees.step hsees hsteps htimed
    have hallowed := hawaits.allowed (hconforms.executions _ (List.mem_of_getElem? hexecution))
    have hrow := hrowed.executions id execution hexecution
    have hop : cluster.op (.advance id raised) = some op := by
      obtain ⟨rest, hprogram⟩ := hawaits.program_eq
      simp [Cluster.op, hexecution, hprogram, Thread.op]
    generalize next.world = world at hawaits hafter ⊢
    cases hawaits with
    | answered rest hprogram => exact hsees.done hafter hrow hpeopled hallowed
    | raised failure rest hprogram =>
        have hexternal := Cluster.steady_external hsteady hop rfl
        refine hafter.congr ?_ rfl rfl rfl
        simp [ExecHistory.fault, hexternal]

theorem reach_sees {Allowed : Cluster → ClusterAction → Prop} {users : Nat → Bool}
    (hreach : Reach Cluster.step Allowed (Cluster.init users) cluster)
    (hallowed : ∀ cluster action, Allowed cluster action → cluster.steady action = true) :
    cluster.Sees := by
  refine hreach.invariant_with Cluster.Sees
    (fun hbefore => And.intro (reach_conforms hbefore) (And.intro (reach_timed hbefore)
      (And.intro (reach_rowed hbefore) (reach_peopled hbefore))))
    (fun _ _ hexecution => by simp [Cluster.init] at hexecution) ?_
  intro before action after hknown h hstep hnext
  exact Cluster.Sees.step h hknown.1 hknown.2.1 hknown.2.2.1 hknown.2.2.2 (hallowed _ _ hstep)
    (Cluster.steps_of_step hnext)

/-! ### The records of the listener -/

theorem Cluster.Tokens.rowed (h : cluster.Tokens) (hrowed : cluster.Rowed)
    (hlease : (cluster.world.lease turnId).isSome = true) :
    (cluster.world.turns turnId).isSome = true := by
  obtain ⟨entry, hentry⟩ := Option.isSome_iff_exists.mp hlease
  obtain ⟨writer, hwriter, rfl, _⟩ := h.lease turnId entry hentry
  exact hrowed.executions _ writer hwriter

/-- A message is about the lease of a turn that has a row. -/
def Cluster.NoticesRowed (cluster : Cluster) : Prop :=
  ∀ turnId, cluster.world.notices turnId ≠ [] → (cluster.world.turns turnId).isSome = true

theorem reach_noticesRowed {Allowed : Cluster → ClusterAction → Prop} {users : Nat → Bool}
    (hreach : Reach Cluster.step Allowed (Cluster.init users) cluster) : cluster.NoticesRowed := by
  refine hreach.invariant_with Cluster.NoticesRowed
    (fun hbefore => And.intro (reach_timed hbefore) (And.intro (reach_rowed hbefore)
      (reach_tokens hbefore))) (fun _ hnotice => absurd rfl hnotice) ?_
  intro before action after ⟨htimed, hrowed, htokens⟩ h _ hstep turnId hnotice
  have hsteps := Cluster.steps_of_step hstep
  exact hsteps.row_isSome htimed ((hsteps.notice_before hnotice).elim (h turnId) fun hlease =>
    htokens.rowed hrowed hlease.1)

/-- What the listener has on record about the turn of its message. -/
structure ControlHistory.Sees (world : World) (turnId : Nat) (history : ControlHistory) : Prop where
  row : (world.turns turnId).isSome = true
  faultless : history.faulted = false
  there : history.found ≠ some none
  examined : ∀ row, history.examined = some row → row.id = turnId ∧
    (row.status.isTerminal = true → world.decided turnId = true)
  finalized : turnId ∈ history.finalized → world.decided turnId = true

theorem ControlHistory.sees_start (hrow : (world.turns turnId).isSome = true) :
    ControlHistory.Sees world turnId {} where
  row := hrow
  faultless := rfl
  there h := by cases h
  examined _ h := by cases h
  finalized h := absurd h List.not_mem_nil

theorem ControlHistory.Sees.step {history : ControlHistory} (h : history.Sees cluster.world turnId)
    (hsteps : cluster.Steps action next) (htimed : cluster.world.Timed) :
    history.Sees next.world turnId where
  row := hsteps.row_isSome htimed h.row
  faultless := h.faultless
  there := h.there
  examined row hrow := ⟨(h.examined row hrow).1,
    fun hterminal => hsteps.decided htimed ((h.examined row hrow).2 hterminal)⟩
  finalized hfinalized := hsteps.decided htimed (h.finalized hfinalized)

theorem ControlHistory.Sees.congr {history other : ControlHistory} (h : history.Sees world turnId)
    (hfaulted : other.faulted = history.faulted) (hfound : other.found = history.found)
    (hfinalized : other.finalized = history.finalized) : other.Sees world turnId where
  row := h.row
  faultless := hfaulted.trans h.faultless
  there := hfound ▸ h.there
  examined row hrow := by
    unfold ControlHistory.examined at hrow
    rw [hfound] at hrow
    exact h.examined row hrow
  finalized hmem := h.finalized (hfinalized ▸ hmem)

/-- An answer that the listener sees. -/
theorem ControlHistory.Sees.done {history : ControlHistory} {found : Option TurnRow}
    (h : history.Sees world turnId) (hindexed : world.Indexed)
    (hafter : history.Sees (world.perform self lost op).2 turnId)
    (hallowed : ListenerAllowed turnId found op) :
    (history.done op (world.perform self lost op).1).Sees (world.perform self lost op).2 turnId := by
  cases op with
  | getTurn target =>
      obtain rfl : target = turnId := hallowed
      obtain ⟨row, hfound⟩ := Option.isSome_iff_exists.mp h.row
      have hread : (world.perform self lost (.getTurn target)).1 = some row := hfound
      refine ⟨hafter.row, hafter.faultless, ?_, ?_, hafter.finalized⟩
      · simp only [ControlHistory.done, hread]
        exact fun hnone => by cases hnone
      · intro other hother
        simp only [ControlHistory.done, hread, ControlHistory.examined, Option.bind_some, id_eq]
          at hother
        obtain rfl := Option.some.inj hother
        exact ⟨hindexed _ _ hfound, fun hterminal => (Option.any_eq_true ..).mpr ⟨_, hfound, hterminal⟩⟩
  | getActiveForChat => exact hallowed.elim
  | finalizeOnce target status errorCode errorDetail =>
      refine ⟨hafter.row, hafter.faultless, hafter.there, hafter.examined, fun hmem => ?_⟩
      rcases List.mem_cons.mp hmem with rfl | hbefore
      · exact World.finalizeOnce_decided h.row
      · exact hafter.finalized hbefore
  | _ => exact hafter.congr rfl rfl rfl

/-- The records of the listener. -/
abbrev Cluster.ListenerSees (cluster : Cluster) : Prop :=
  cluster.ControlRecords fun world _ kind history =>
    ∀ target acquisition, kind = .listener target acquisition → history.Sees world target

theorem Cluster.ListenerSees.step (h : cluster.ListenerSees) (htimed : cluster.world.Timed)
    (hnotices : cluster.NoticesRowed) (hindexed : cluster.world.Indexed)
    (hheeds : ∀ control ∈ cluster.controls, control.Heeds) (hsteady : cluster.steady action = true)
    (hsteps : cluster.Steps action next) : next.ListenerSees := by
  refine Cluster.ControlRecords.step h hsteps ?_ ?_ ?_
  · intro kind hnotice _ target acquisition hkind
    have hrow := hnotices target (List.ne_nil_of_mem (hnotice target acquisition hkind))
    exact ControlHistory.sees_start (hsteps.row_isSome htimed hrow)
  · exact fun _ _ _ _ hsees target acquisition hkind =>
      (hsees target acquisition hkind).step hsteps htimed
  · intro id control after op raised haction hcontrol hawaits hsees target acquisition hkind
    rw [hawaits.kind_eq] at hkind
    replace hsees := hsees target acquisition hkind
    have hafter := hsees.step hsteps htimed
    obtain ⟨found, hwp, _⟩ := hheeds control (List.mem_of_getElem? hcontrol) target acquisition hkind
    have hop : cluster.op action = some op := by
      obtain ⟨rest, hprogram⟩ := hawaits.program_eq
      simp [Cluster.op, haction, hcontrol, hprogram, Thread.op]
    subst haction
    generalize next.world = world at hawaits hafter ⊢
    cases hawaits with
    | answered rest hprogram =>
        rw [hprogram] at hwp
        exact hsees.done hindexed hafter hwp.1
    | raised failure rest hprogram =>
        have hexternal := Cluster.steady_external hsteady hop rfl
        refine hafter.congr ?_ rfl rfl
        simp [ControlHistory.fault, hexternal]

theorem reach_listenerSees {Allowed : Cluster → ClusterAction → Prop} {users : Nat → Bool}
    (hreach : Reach Cluster.step Allowed (Cluster.init users) cluster)
    (hallowed : ∀ cluster action, Allowed cluster action → cluster.steady action = true) :
    cluster.ListenerSees := by
  refine hreach.invariant_with Cluster.ListenerSees
    (fun hbefore => And.intro (And.intro (reach_timed hbefore) (reach_noticesRowed hbefore))
      (And.intro (reach_indexed hbefore) (reach_heeds hbefore)))
    (fun _ _ hcontrol => by simp [Cluster.init] at hcontrol) ?_
  intro before action after hknown h hstep hnext
  exact Cluster.ListenerSees.step h hknown.1.1 hknown.1.2 hknown.2.1 hknown.2.2 (hallowed _ _ hstep)
    (Cluster.steps_of_step hnext)

/-- A listener that comes to its end leaves a turn that is decided. -/
theorem Cluster.ListenerSees.ended (h : cluster.ListenerSees) (hconforms : cluster.Conforms)
    {id : Nat} {control : Control} (hcontrol : cluster.controls[id]? = some control)
    {acquisition : Nat} (hkind : control.kind = .listener turnId acquisition)
    (hended : control.program.ended = true) : cluster.world.decided turnId = true := by
  have hsees : control.history.Sees cluster.world turnId := h id control hcontrol turnId acquisition hkind
  have hover := (hconforms.controls control (List.mem_of_getElem? hcontrol)).ended hended
  rw [hkind] at hover
  rcases hover with hfaulted | hnone | ⟨row, hrow, hterminal | hfinalized⟩
  · simp [hsees.faultless] at hfaulted
  · exact absurd hnone hsees.there
  · exact (hsees.examined row hrow).2 hterminal
  · exact hsees.finalized ((hsees.examined row hrow).1 ▸ hfinalized)

/-! ### The owner of the lease -/

/-- A lease that is refused is there and stays as it is. -/
theorem World.setLeaseNx_refused {holder : Nat}
    (hrefused : (world.perform self lost (.setLeaseNx turnId holder)).1 = false) :
    (world.lease turnId).isSome = true ∧
      (world.perform self lost (.setLeaseNx turnId holder)).2.lease = world.lease := by
  have hanswer : (world.perform self lost (.setLeaseNx turnId holder)).1 =
      !(world.lease turnId).isSome := by
    cases hlease : world.lease turnId <;>
      simp [World.perform, World.acquireLease, World.setLease, ExpiringStore.setNx, hlease]
  have hheld : (world.lease turnId).isSome = true := by simpa [hrefused] using hanswer.symm
  refine ⟨hheld, ?_⟩
  change (world.acquireLease self turnId holder).2.lease = world.lease
  simp [acquireLease_world, ExpiringStore.setNx, hheld]

/-- After a release no lease with the caller's token is left. -/
theorem World.releaseLease_gone {holder : Nat} {entry : StoreEntry Nat Nat}
    (hentry : (world.perform self lost (.releaseLease turnId holder)).2.lease turnId = some entry) :
    entry.value ≠ holder := by
  have hsteps := StoreCommand.run_steps world.lease (world.now + lockTtl) self turnId
    (.delIfEq turnId holder)
  have hrun : ((StoreCommand.delIfEq turnId holder).run world.lease (world.now + lockTtl) self).2
      turnId = some entry := hentry
  rw [hrun] at hsteps
  generalize ((StoreCommand.delIfEq turnId holder).run world.lease (world.now + lockTtl) self).1 =
    answer at hsteps
  generalize world.lease turnId = before at hsteps
  generalize hafter : some entry = after at hsteps
  cases hsteps with
  | other _ _ _ hother => exact absurd rfl (hother holder).2.2
  | deleted => cases hafter
  | refused _ value hcommand _ hvalue =>
      rcases hcommand with hcommand | hcommand <;> cases hcommand
      exact hvalue entry hafter.symm

theorem ExecHistory.done_leased {history : ExecHistory} {value : op.Val}
    (hop : op.isLeaseAcquisition = false) :
    (history.done turnId op value).leased = history.leased := by
  cases op with
  | setLeaseNx => cases hop
  | nextNote note => cases note <;> rfl
  | external call =>
      cases call with
      | startTurn reply => cases reply <;> rfl
      | _ => rfl
  | _ => rfl

/-- The execution does not come to its end while it has the lease. -/
structure Execution.Leases (execution : Execution) (held : Bool) : Prop where
  program : execution.program.wp leaseMonitor (fun out _ _ => nomatch out)
    (fun _ held => held ≠ some true) (some held)
  leased : held = true → execution.history.leased.isSome = true

/-- Who took a lease has it. -/
def Cluster.Owned (cluster : Cluster) : Prop :=
  ∀ (id : Nat) execution, cluster.executions[id]? = some execution →
    ∃ held, execution.Leases held ∧
      ∀ turnId entry, cluster.world.lease turnId = some entry → entry.owner = id → held = true

theorem Execution.Leases.live {execution : Execution} (h : execution.Leases true)
    (hrunning : execution.running = true) : execution.live = true := by
  simp only [Execution.live, hrunning, Bool.true_and, Bool.not_eq_true', Thread.ended]
  have hwp := h.program
  cases hprogram : execution.program with
  | ret value =>
      rw [hprogram] at hwp
      exact absurd rfl hwp
  | call op rest => rfl
  | emit out rest => cases out

/-- An await of an execution with the lease, or without it. -/
theorem Cluster.Owned.advance (h : cluster.Owned) (hconforms : cluster.Conforms)
    {id : Nat} {execution after : Execution} {raised : Option Fault}
    (hexecution : cluster.executions[id]? = some execution)
    (hawaits : execution.Awaits id cluster.world op raised after world)
    (hexternal : ∀ failure, raised = some failure → op.isExternal = true)
    (hsource : ∀ turnId entry, world.lease turnId = some entry →
      (∃ before, cluster.world.lease turnId = some before ∧ before.owner = entry.owner) ∨
        op.takesLease turnId = true)
    (htokens : ∀ turnId entry, world.lease turnId = some entry → entry.owner = id →
      execution.turnId = turnId ∧ execution.cfg.holder = entry.value) :
    ∃ held, after.Leases held ∧
      ∀ turnId entry, world.lease turnId = some entry → entry.owner = id → held = true := by
  obtain ⟨held, hleases, howned⟩ := h id execution hexecution
  have hown := hconforms.executions execution (List.mem_of_getElem? hexecution)
  have hallowed := hawaits.allowed hown
  have hkept : (∀ turnId, op.takesLease turnId = false) → ∀ turnId entry,
      world.lease turnId = some entry → entry.owner = id → held = true := by
    intro hquiet turnId entry hentry howner
    rcases hsource turnId entry hentry with ⟨before, hbefore, hsame⟩ | htakes
    · exact howned turnId before hbefore (hsame.trans howner)
    · simp [hquiet turnId] at htakes
  cases hawaits with
  | raised failure rest hprogram =>
      have hop := hexternal failure rfl
      have hwp := hleases.program
      rw [hprogram] at hwp
      have hnext : leaseMonitor.next (some held) op (.error failure) = some held := if_pos hop
      refine ⟨held, ⟨hnext ▸ hwp.2 (.error failure), hleases.leased⟩, hkept fun turnId => ?_⟩
      cases op with
      | setLeaseNx => cases hop
      | _ => rfl
  | answered rest hprogram =>
      have hwp := hleases.program
      rw [hprogram] at hwp
      cases op with
      | setLeaseNx target holder =>
          refine ⟨_, ⟨hwp.2 (.ok _), fun hacquired => ?_⟩, fun turnId entry hentry howner => ?_⟩
          · simp [ExecHistory.done, hacquired]
          · by_contra hrefused
            have hbefore := (World.setLeaseNx_refused (Bool.not_eq_true _ ▸ hrefused)).2
            have hleased := hleases.leased (howned turnId entry (hbefore ▸ hentry) howner)
            have hnone : execution.history.leased = none := hallowed.2.2.1
            simp [hnone] at hleased
      | releaseLease target holder =>
          refine ⟨_, ⟨hwp.2 (.ok _), fun hfalse => by cases hfalse⟩, fun turnId entry hentry howner => ?_⟩
          obtain ⟨hturn, hvalue⟩ := htokens turnId entry hentry howner
          obtain ⟨rfl, hleased, _⟩ := hallowed
          obtain rfl : execution.cfg.turnId = turnId := hturn
          exact absurd (hvalue.symm.trans (hown.sound.holder holder hleased).symm)
            (World.releaseLease_gone hentry)
      | _ =>
          refine ⟨held, ⟨hwp.2 (.ok _), fun hheld => ?_⟩, hkept fun _ => rfl⟩
          exact (congrArg Option.isSome (ExecHistory.done_leased (by rfl))).trans (hleases.leased hheld)

theorem Op.takesLease_eq (h : op.takesLease turnId = true) :
    ∃ holder, op = .setLeaseNx turnId holder := by
  cases op with
  | setLeaseNx target holder =>
      obtain rfl : target = turnId := of_decide_eq_true h
      exact ⟨holder, rfl⟩
  | _ => cases h

theorem Cluster.Owned.step (h : cluster.Owned) (hconforms : cluster.Conforms)
    (htokens : cluster.Tokens) (hsteady : cluster.steady action = true)
    (hsteps : cluster.Steps action next) : next.Owned := by
  intro id after hafter
  cases hsteps.continues hafter with
  | started cfg again haction hqueue hid hstarted =>
      subst hstarted
      refine ⟨false, ⟨executeTurn_unheld cfg, fun hfalse => by cases hfalse⟩, ?_⟩
      -- the leases are those of executions that were there before
      intro turnId entry hentry howner
      obtain ⟨writer, hwriter⟩ : ∃ writer, cluster.executions[entry.owner]? = some writer := by
        rcases hsteps.lease_origin hconforms hentry with
          ⟨before, hbefore, _, hsame⟩ | ⟨writer, hwriter, _⟩
        · obtain ⟨writer, hwriter, _⟩ := htokens.lease turnId before hbefore
          exact ⟨writer, hsame ▸ hwriter⟩
        · exact ⟨writer, hwriter⟩
      obtain ⟨hlt, _⟩ := List.getElem?_eq_some_iff.mp hwriter
      omega
  | kept execution haction hexecution hcfg hprogram hhistory hrunning =>
      obtain ⟨held, hleases, howned⟩ := h id execution hexecution
      refine ⟨held, ⟨hprogram ▸ hleases.program, hhistory ▸ hleases.leased⟩, ?_⟩
      intro turnId entry hentry howner
      rcases hsteps.lease_taken hentry with ⟨before, hbefore, hsame⟩ | ⟨op, hop, _, htakes, hself⟩
      · exact howned turnId before hbefore (hsame.trans howner)
      · obtain ⟨holder, rfl⟩ := Op.takesLease_eq htakes
        obtain ⟨other, raised, _, rfl, _⟩ := hconforms.takes_lease hop
        obtain rfl := (hself other raised rfl).symm.trans howner
        exact absurd rfl (haction raised)
  | advanced execution op raised haction hexecution hawaits =>
      subst haction
      have hop : cluster.op (.advance id raised) = some op := by
        obtain ⟨rest, hprogram⟩ := hawaits.program_eq
        simp [Cluster.op, hexecution, hprogram, Thread.op]
      refine h.advance hconforms hexecution hawaits ?_ ?_ ?_
      · rintro failure rfl
        exact Cluster.steady_external hsteady hop rfl
      · intro turnId entry hentry
        rcases hsteps.lease_taken hentry with hbefore | ⟨other, hother, _, htakes, _⟩
        · exact .inl hbefore
        · exact .inr (Option.some.inj (hop.symm.trans hother) ▸ htakes)
      · intro turnId entry hentry howner
        obtain ⟨writer, hwriter, hturn, hholder⟩ :=
          (htokens.step hconforms hsteps).lease turnId entry hentry
        subst howner
        obtain rfl := Option.some.inj (hafter.symm.trans hwriter)
        exact ⟨(congrArg ExecConfig.turnId hawaits.cfg_eq).symm.trans hturn,
          (congrArg ExecConfig.holder hawaits.cfg_eq).symm.trans hholder⟩

/-! ### The shutdown of a process -/

/-- A process that shuts down is there. -/
def Cluster.Departs (cluster : Cluster) : Prop :=
  ∀ control ∈ cluster.controls, ∀ holder, control.kind = .shutdown holder → control.running = true →
    ∀ execution ∈ cluster.executions, execution.cfg.holder = holder → execution.running = true

theorem Cluster.Departs.step (h : cluster.Departs) (hcondition : cluster.shutsDown action = true)
    (hsteps : cluster.Steps action next) : next.Departs := by
  intro control hcontrol holder hkind hrunning execution hexecution hholder
  cases hsteps with
  | tick | redeliver | miss =>
      exact h control hcontrol holder hkind hrunning execution hexecution hholder
  | deliver cfg again hqueue =>
      rcases List.mem_append.mp hexecution with hold | hnew
      · exact h control hcontrol holder hkind hrunning execution hold hholder
      · obtain rfl := List.mem_singleton.mp hnew
        rfl
  | @advance id raised before after op world hbefore hawaits =>
      rcases List.mem_or_eq_of_mem_set hexecution with hold | rfl
      · exact h control hcontrol holder hkind hrunning execution hold hholder
      · have hwas := hawaits.running
        cases hawaits <;> exact hwas
  | beat id raised hbefore hheartbeat hwas hpoint hraised =>
      rcases List.mem_or_eq_of_mem_set hexecution with hold | rfl
      · exact h control hcontrol holder hkind hrunning execution hold hholder
      · exact hwas
  | spawn kind hlistener =>
      rcases List.mem_append.mp hcontrol with hold | hnew
      · exact h control hold holder hkind hrunning execution hexecution hholder
      · obtain rfl := List.mem_singleton.mp hnew
        obtain rfl : kind = .shutdown holder := hkind
        simp only [Cluster.shutsDown, List.all_eq_true, Bool.or_eq_true, decide_eq_true_eq]
          at hcondition
        exact (hcondition execution hexecution).resolve_right fun hne => hne hholder
  | notice target acquisition hnotice =>
      rcases List.mem_append.mp hcontrol with hold | hnew
      · exact h control hold holder hkind hrunning execution hexecution hholder
      · obtain rfl := List.mem_singleton.mp hnew
        cases hkind
  | @control id raised before after op world hbefore hawaits =>
      rcases List.mem_or_eq_of_mem_set hcontrol with hold | rfl
      · exact h control hold holder hkind hrunning execution hexecution hholder
      · have hwas : before.running = true := by cases hawaits <;> exact hrunning
        exact h before (List.mem_of_getElem? hbefore) holder (hawaits.kind_eq.symm.trans hkind) hwas
          execution hexecution hholder
  | crash process =>
      obtain ⟨old, hold, rfl⟩ := List.mem_map.mp hcontrol
      obtain ⟨before, hbefore, rfl⟩ := List.mem_map.mp hexecution
      by_cases hprocess : old.isShutdown process = true
      · rw [if_pos hprocess] at hrunning
        cases hrunning
      · rw [if_neg hprocess] at hkind hrunning
        have hsame : before.cfg.holder = holder := by
          split at hholder <;> exact hholder
        have hother : before.cfg.holder ≠ process := fun heq => hprocess <| by
          simp [Control.isShutdown, hkind, ← hsame, heq]
        rw [if_neg hother]
        exact h old hold holder hkind hrunning before hbefore hsame
  | quit id hbefore =>
      rcases List.mem_or_eq_of_mem_set hcontrol with hold | rfl
      · exact h control hold holder hkind hrunning execution hexecution hholder
      · cases hrunning

/-! ### Attendance along a run -/

/-- What is known of every state of a run in which nothing fails. -/
structure Cluster.Tended (cluster : Cluster) : Prop where
  conforms : cluster.Conforms
  timed : cluster.world.Timed
  rowed : cluster.Rowed
  tokens : cluster.Tokens
  sees : cluster.Sees
  listener : cluster.ListenerSees
  owned : cluster.Owned
  departs : cluster.Departs

/-- PostgreSQL and Redis succeed, no dead process shuts down, no execution leaves the turn to nobody,
and no message about its lease is lost. -/
def Cluster.tends (turnId : Nat) (cluster : Cluster) (action : ClusterAction) : Bool :=
  cluster.steady action && cluster.shutsDown action && cluster.yields turnId action &&
    cluster.keepsNotices turnId action

theorem Cluster.tends_iff : cluster.tends turnId action = true ↔ cluster.steady action = true ∧
    cluster.shutsDown action = true ∧ cluster.yields turnId action = true ∧
    cluster.keepsNotices turnId action = true := by
  simp [Cluster.tends, and_assoc]

theorem reach_tended {users : Nat → Bool}
    (hreach : Reach Cluster.step (fun cluster action => cluster.tends turnId action = true)
      (Cluster.init users) cluster) : cluster.Tended := by
  have hsteady : ∀ (cluster : Cluster) (action : ClusterAction),
      cluster.tends turnId action = true → cluster.steady action = true :=
    fun _ _ htends => (Cluster.tends_iff.mp htends).1
  have howned : cluster.Owned := by
    refine hreach.invariant_with Cluster.Owned
      (fun hbefore => And.intro (reach_conforms hbefore) (reach_tokens hbefore))
      (fun _ _ hexecution => by simp [Cluster.init] at hexecution) ?_
    exact fun _ _ _ hknown h hstep hnext =>
      h.step hknown.1 hknown.2 (hsteady _ _ hstep) (Cluster.steps_of_step hnext)
  have hdeparts : cluster.Departs := by
    refine hreach.invariant Cluster.Departs (fun _ hmem => absurd hmem List.not_mem_nil) ?_
    exact fun _ _ _ h hstep hnext =>
      h.step (Cluster.tends_iff.mp hstep).2.1 (Cluster.steps_of_step hnext)
  exact ⟨reach_conforms hreach, reach_timed hreach, reach_rowed hreach, reach_tokens hreach,
    reach_sees hreach hsteady, reach_listenerSees hreach hsteady, howned, hdeparts⟩

/-- An execution after a step. -/
theorem Cluster.Steps.execution_after (hsteps : cluster.Steps action next) {id : Nat}
    {execution : Execution} (hexecution : cluster.executions[id]? = some execution) :
    (∃ after, next.executions[id]? = some after ∧ after.cfg = execution.cfg ∧
        after.program = execution.program ∧ after.history = execution.history ∧
        after.running = execution.running) ∨
      (∃ raised op after, action = .advance id raised ∧ next.executions[id]? = some after ∧
        execution.Awaits id cluster.world op raised after next.world) ∨
      ∃ holder, action = .crash holder ∧ execution.cfg.holder = holder := by
  obtain ⟨hid, _⟩ := List.getElem?_eq_some_iff.mp hexecution
  cases hsteps with
  | tick | redeliver | spawn | notice | control | quit | miss =>
      exact .inl ⟨execution, hexecution, rfl, rfl, rfl, rfl⟩
  | deliver cfg again hqueue =>
      exact .inl ⟨execution, (List.getElem?_append_left hid).trans hexecution, rfl, rfl, rfl, rfl⟩
  | @advance target raised before after op world hbefore hawaits =>
      by_cases htarget : target = id
      · subst htarget
        obtain rfl := Option.some.inj (hexecution.symm.trans hbefore)
        exact .inr (.inl ⟨raised, op, after, rfl, List.getElem?_set_self hid, hawaits⟩)
      · exact .inl ⟨execution, (List.getElem?_set_ne htarget).trans hexecution, rfl, rfl, rfl, rfl⟩
  | @beat target raised before heartbeat hbefore =>
      by_cases htarget : target = id
      · subst htarget
        obtain rfl := Option.some.inj (hexecution.symm.trans hbefore)
        exact .inl ⟨_, List.getElem?_set_self hid, rfl, rfl, rfl, rfl⟩
      · exact .inl ⟨execution, (List.getElem?_set_ne htarget).trans hexecution, rfl, rfl, rfl, rfl⟩
  | crash holder =>
      by_cases hholder : execution.cfg.holder = holder
      · exact .inr (.inr ⟨holder, rfl, hholder⟩)
      · refine .inl ⟨execution, ?_, rfl, rfl, rfl, rfl⟩
        simp [Cluster.crash, hexecution, hholder]

/-- An execution that has come to its end leaves a turn that is decided, or has been skipped. -/
theorem Cluster.Tended.ended (h : cluster.Tended) {id : Nat} {execution : Execution}
    (hexecution : cluster.executions[id]? = some execution)
    (hended : execution.program.ended = true) (hskipped : execution.history.skipped = false) :
    cluster.world.decided execution.turnId = true := by
  have hsees : execution.history.Sees cluster.world execution.turnId := h.sees id execution hexecution
  have hover := (h.conforms.executions execution (List.mem_of_getElem? hexecution)).ended hended
  rcases hover.outcome with hrequested | hskip | hfaulted | hnone | ⟨row, hrow, hterminal⟩ | huser
  · exact hsees.requested hrequested
  · simp [hskipped] at hskip
  · simp [hsees.faultless] at hfaulted
  · exact absurd hnone hsees.there
  · exact hsees.terminal row hrow hterminal
  · exact absurd huser hsees.known

/-- An execution that leaves the turn to another one. -/
theorem Cluster.Steps.yielded {id : Nat} {raised : Option Fault}
    (hsteps : cluster.Steps (.advance id raised) next) (hconforms : cluster.Conforms)
    (hsteady : cluster.steady (.advance id raised) = true)
    (hyields : cluster.yields turnId (.advance id raised) = true) {execution after : Execution}
    (hexecution : cluster.executions[id]? = some execution)
    (hafter : next.executions[id]? = some after) (hworks : execution.works turnId = true)
    (hskipped : after.history.skipped = true) : next.attended turnId = true := by
  obtain ⟨rfl, _, hunskipped⟩ := Execution.works_iff.mp hworks
  cases hsteps with
  | @advance _ _ before later op world hbefore hawaits =>
      obtain rfl := getElem?_set_self_eq hbefore hafter
      obtain rfl := Option.some.inj (hexecution.symm.trans hbefore)
      have hallowed := hawaits.allowed (hconforms.executions _ (List.mem_of_getElem? hexecution))
      obtain ⟨rest, hprogram⟩ := hawaits.program_eq
      have hop : cluster.op (.advance id raised) = some op := by
        simp [Cluster.op, hexecution, hprogram, Thread.op]
      cases hawaits with
      | raised failure =>
          have hexternal := Cluster.steady_external hsteady hop rfl
          have hother : op.isLeaseAcquisition = false := by
            cases op with
            | setLeaseNx => cases hexternal
            | _ => rfl
          simp [ExecHistory.fault_skipped hother, hunskipped] at hskipped
      | answered =>
          cases op with
          | getActive chatId =>
              have hown : (cluster.world.active chatId).map StoreEntry.value =
                  some execution.turnId := by
                simpa [ExecHistory.done, hunskipped, World.perform] using hskipped
              obtain ⟨entry, hentry, hvalue⟩ := Option.map_eq_some_iff.mp hown
              have hothers : { cluster with
                  executions := cluster.executions.eraseIdx id }.attended execution.turnId = true := by
                simpa [Cluster.yields, hexecution, hprogram, Thread.op, hentry, hvalue] using hyields
              refine Cluster.attended_iff.mpr ?_
              rcases Cluster.attended_iff.mp hothers with hqueue | ⟨other, hother, hworks⟩ | hrest
              · exact .inl hqueue
              · obtain ⟨index, hindex, hother⟩ := List.mem_eraseIdx_iff_getElem?.mp hother
                refine .inr (.inl ⟨other, List.mem_of_getElem? (i := index) ?_, hworks⟩)
                exact (List.getElem?_set_ne (Ne.symm hindex)).trans hother
              · exact .inr (.inr hrest)
          | setLeaseNx target holder =>
              obtain rfl : target = execution.turnId := hallowed.1
              have hrefused : (cluster.world.perform id execution.ownershipLost
                  (.setLeaseNx execution.turnId holder)).1 = false := by
                simpa [ExecHistory.done, hunskipped] using hskipped
              obtain ⟨hheld, hkept⟩ := World.setLeaseNx_refused hrefused
              exact Cluster.attended_iff.mpr (.inr (.inr (.inl (hkept ▸ hheld))))
          | nextNote note =>
              cases note <;> exact absurd (hunskipped.symm.trans hskipped) Bool.false_ne_true
          | external call =>
              cases call with
              | startTurn reply =>
                  cases reply <;> exact absurd (hunskipped.symm.trans hskipped) Bool.false_ne_true
              | _ => exact absurd (hunskipped.symm.trans hskipped) Bool.false_ne_true
          | _ => exact absurd (hunskipped.symm.trans hskipped) Bool.false_ne_true

/-- An execution that works goes on to, or hands the turn on. -/
theorem Cluster.Steps.worked (hsteps : cluster.Steps action next) (h : cluster.Tended)
    (hafter : next.Tended) (htends : cluster.tends turnId action = true) {execution : Execution}
    (hmem : execution ∈ cluster.executions) (hworks : execution.works turnId = true) :
    next.world.decided turnId = true ∨ next.attended turnId = true := by
  obtain ⟨id, hexecution⟩ := List.mem_iff_getElem?.mp hmem
  obtain ⟨rfl, hlive, hskipped⟩ := Execution.works_iff.mp hworks
  obtain ⟨hsteady, _, hyields, _⟩ := Cluster.tends_iff.mp htends
  rcases hsteps.execution_after hexecution with
    ⟨after, hnext, hcfg, hprogram, hhistory, hrunning⟩ | ⟨raised, op, after, rfl, hnext, hawaits⟩ |
      ⟨holder, rfl, hholder⟩
  · refine .inr (Cluster.attended_iff.mpr (.inr (.inl ⟨after, List.mem_of_getElem? hnext, ?_⟩)))
    refine Execution.works_iff.mpr ⟨congrArg ExecConfig.turnId hcfg, ?_, hhistory ▸ hskipped⟩
    simpa only [Execution.live, hprogram, hrunning] using hlive
  · have hturn : after.turnId = execution.turnId := congrArg ExecConfig.turnId hawaits.cfg_eq
    by_cases hskip : after.history.skipped = true
    · exact .inr (hsteps.yielded h.conforms hsteady hyields hexecution hnext hworks hskip)
    · rw [Bool.not_eq_true] at hskip
      by_cases hended : after.program.ended = true
      · exact .inl (hturn ▸ hafter.ended hnext hended hskip)
      · refine .inr (Cluster.attended_iff.mpr (.inr (.inl ⟨after, List.mem_of_getElem? hnext, ?_⟩)))
        have hrunning : after.running = true := by
          have hwas := hawaits.running
          generalize next.world = world at hawaits
          cases hawaits <;> exact hwas
        exact Execution.works_iff.mpr ⟨hturn, by simp [Execution.live, hrunning, hended], hskip⟩
  · refine .inr (Cluster.attended_iff.mpr (.inl ?_))
    cases hsteps
    simp only [Cluster.crash, Bool.or_eq_true, List.any_eq_true, Bool.and_eq_true, decide_eq_true_eq]
    exact .inr ⟨execution, hmem, ⟨rfl, hholder⟩, hlive⟩

theorem Op.leaseCommand_delIfEq {key value : Nat} (h : op.leaseCommand = some (.delIfEq key value)) :
    op = .releaseLease key value := by
  cases op with
  | releaseLease turnId holder =>
      cases h
      rfl
  | _ => cases h

/-- A lease that is gone after a step has expired, or was released. -/
theorem Cluster.Steps.lease_lost (hsteps : cluster.Steps action next)
    {entry : StoreEntry Nat Nat} (hentry : cluster.world.lease turnId = some entry)
    (hlost : next.world.lease turnId = none) : next.world.notices turnId ≠ [] ∨
      cluster.op action = some (.releaseLease turnId entry.value) := by
  generalize next.world = world, hsteps.shared = hshared at hlost ⊢
  cases hshared with
  | tick =>
      left
      have hexpired : entry.deadline ≤ cluster.world.now + 1 := by
        by_contra hlater
        have hkept : cluster.world.lease.expire (cluster.world.now + 1) turnId = some entry :=
          ExpiringStore.expire_eq_some.mpr ⟨hentry, Nat.lt_of_not_le hlater⟩
        exact absurd (hkept.symm.trans hlost) (Option.some_ne_none entry)
      simp [World.tick, hentry, hexpired]
  | bookkeeping => cases hentry.symm.trans hlost
  | performed self lost op hop =>
      right
      rcases (perform_effect cluster.world self lost op).lease with hkept | ⟨command, hcommand, hrun⟩
      · cases hentry.symm.trans (hkept ▸ hlost)
      · rw [hrun] at hlost
        have hmoved : (command.run cluster.world.lease (cluster.world.now + lockTtl) self).2 turnId ≠
            some entry := hlost ▸ (Option.some_ne_none entry).symm
        rcases StoreCommand.run_changed _ _ _ _ hentry hmoved with rfl | rfl
        · simp [StoreCommand.run, ExpiringStore.touchIfEq, ExpiringStore.holds, hentry] at hlost
        · rw [hop, Op.leaseCommand_delIfEq hcommand]

/-- Who releases a lease leaves a turn with an execution that works on it. -/
theorem Cluster.Tended.releases (h : cluster.Tended) {entry : StoreEntry Nat Nat}
    (hentry : cluster.world.lease turnId = some entry)
    (hop : cluster.op action = some (.releaseLease turnId entry.value))
    (hsteps : cluster.Steps action next) :
    ∃ execution ∈ cluster.executions, execution.works turnId = true := by
  cases h.conforms.actor hop with
  | @execution id raised execution hexecution hallowed =>
      refine ⟨execution, List.mem_of_getElem? hexecution, Execution.works_iff.mpr
        ⟨hallowed.1.symm, ?_, hallowed.2.2⟩⟩
      cases hsteps with
      | advance _ _ hother hawaits =>
          obtain rfl := Option.some.inj (hexecution.symm.trans hother)
          obtain ⟨rest, hprogram⟩ := hawaits.program_eq
          simp [Execution.live, hawaits.running, Thread.ended, hprogram, Thread.op]
  | heartbeat id raised hexecution hheartbeat hbeat =>
      unfold Heartbeat.op at hbeat
      split at hbeat <;> cases hbeat
  | @control id raised control hcontrol hallowed =>
      obtain ⟨owner, howner, hturn, hholder⟩ := h.tokens.lease turnId entry hentry
      obtain ⟨held, hleases, howned⟩ := h.owned entry.owner owner howner
      obtain rfl := howned turnId entry hentry rfl
      have hrunning : control.running = true := by
        cases hsteps with
        | control _ _ hother hawaits =>
            obtain rfl := Option.some.inj (hcontrol.symm.trans hother)
            cases hawaits <;> assumption
      have hthere := h.departs control (List.mem_of_getElem? hcontrol) entry.value hallowed.1 hrunning
        owner (List.mem_of_getElem? howner) hholder
      have hsound := (h.conforms.executions owner (List.mem_of_getElem? howner)).sound
      exact ⟨owner, List.mem_of_getElem? howner, Execution.works_iff.mpr
        ⟨hturn, hleases.live hthere, hsound.unskipped (hleases.leased rfl)⟩⟩

/-- A turn with a delivery in the queue. -/
theorem Cluster.Steps.queued (hsteps : cluster.Steps action next)
    (hqueue : cluster.world.queue turnId = true) : next.attended turnId = true := by
  have hperformed : ∀ (self : Nat) (lost : Bool) (op : Op),
      (cluster.world.perform self lost op).2.queue turnId = true := by
    intro self lost op
    rcases (perform_effect cluster.world self lost op).queue with ⟨hkept, _⟩ | ⟨target, _, hput, _⟩
    · exact hkept ▸ hqueue
    · rw [hput, Function.update_apply]
      split
      · rfl
      · exact hqueue
  refine Cluster.attended_iff.mpr ?_
  cases hsteps with
  | tick | spawn | notice | quit | miss => exact .inl hqueue
  | deliver cfg again =>
      by_cases hturn : turnId = cfg.turnId
      · refine .inr (.inl ⟨Execution.start cfg, List.mem_append_right _ List.mem_cons_self, ?_⟩)
        exact Execution.works_iff.mpr ⟨hturn.symm, rfl, rfl⟩
      · left
        simpa [Function.update_of_ne hturn] using hqueue
  | redeliver target =>
      left
      simp only [Function.update_apply]
      split
      · rfl
      · exact hqueue
  | advance id raised hexecution hawaits =>
      cases hawaits with
      | answered => exact .inl (hperformed ..)
      | raised => exact .inl hqueue
  | @beat id raised execution heartbeat =>
      rcases heartbeat.await_world cluster.world id raised with hkept | ⟨op, _, _, hworld⟩
      · exact .inl (hkept.symm ▸ hqueue)
      · exact .inl (hworld.symm ▸ hperformed ..)
  | control id raised hcontrol hawaits =>
      cases hawaits with
      | answered => exact .inl (hperformed ..)
      | raised => exact .inl hqueue
  | crash holder =>
      left
      simp [Cluster.crash, hqueue]

/-- A message that is under way and is not lost stays so until the listener takes it. -/
theorem Cluster.Steps.noticed (hsteps : cluster.Steps action next)
    (hkeeps : cluster.keepsNotices turnId action = true)
    (hnotice : cluster.world.notices turnId ≠ []) : next.announced turnId = true := by
  refine Cluster.announced_iff.mpr ?_
  cases hsteps with
  | tick =>
      left
      simp only [World.tick]
      split
      · simp
      · exact hnotice
  | deliver | redeliver | spawn => exact .inl hnotice
  | crash | quit => exact .inl hnotice
  | miss target acquisition =>
      have hturn : turnId ≠ target := fun heq => by simp [Cluster.keepsNotices, heq] at hkeeps
      left
      simpa [World.withoutNotice, Function.update_of_ne hturn] using hnotice
  | notice target acquisition =>
      by_cases hturn : turnId = target
      · subst hturn
        refine .inr ⟨_, List.mem_append_right _ List.mem_cons_self, Control.hears_iff.mpr ?_⟩
        exact ⟨rfl, acquisition, rfl⟩
      · left
        simpa [World.withoutNotice, Function.update_of_ne hturn] using hnotice
  | advance id raised hexecution hawaits =>
      cases hawaits with
      | answered => exact .inl (World.perform_notices.symm ▸ hnotice)
      | raised => exact .inl hnotice
  | @beat id raised execution heartbeat =>
      rcases heartbeat.await_world cluster.world id raised with hkept | ⟨op, _, _, hworld⟩
      · exact .inl (hkept.symm ▸ hnotice)
      · simp only [hworld, World.perform_notices]
        exact .inl hnotice
  | control id raised hcontrol hawaits =>
      cases hawaits with
      | answered => exact .inl (World.perform_notices.symm ▸ hnotice)
      | raised => exact .inl hnotice

/-- A message that the listener has in hand stays so until the turn is decided. -/
theorem Cluster.Steps.heard (hsteps : cluster.Steps action next) (hafter : next.Tended)
    (hkeeps : cluster.keepsNotices turnId action = true) {control : Control}
    (hmem : control ∈ cluster.controls) (hhears : control.hears turnId = true) :
    next.world.decided turnId = true ∨ next.announced turnId = true := by
  obtain ⟨id, hcontrol⟩ := List.mem_iff_getElem?.mp hmem
  obtain ⟨hlt, _⟩ := List.getElem?_eq_some_iff.mp hcontrol
  obtain ⟨hlive, acquisition, hkind⟩ := Control.hears_iff.mp hhears
  have hkept : control ∈ next.controls → next.announced turnId = true := fun hthere =>
    Cluster.announced_iff.mpr (.inr ⟨control, hthere, hhears⟩)
  cases hsteps with
  | tick | deliver | redeliver | advance | beat | miss => exact .inr (hkept hmem)
  | @quit target before hbefore =>
      have htarget : target ≠ id := by
        rintro rfl
        obtain rfl := Option.some.inj (hcontrol.symm.trans hbefore)
        simp [Cluster.keepsNotices, hcontrol, hhears] at hkeeps
      exact .inr (hkept (List.mem_of_getElem? ((List.getElem?_set_ne htarget).trans hcontrol)))
  | spawn | notice => exact .inr (hkept (List.mem_append_left _ hmem))
  | crash holder =>
      refine .inr (hkept (List.mem_map.mpr ⟨control, hmem, ?_⟩))
      simp [Control.isShutdown, hkind]
  | @control target raised before after op world hbefore hawaits =>
      by_cases htarget : target = id
      · subst htarget
        obtain rfl := Option.some.inj (hcontrol.symm.trans hbefore)
        have hnext : (cluster.controls.set target after)[target]? = some after :=
          List.getElem?_set_self hlt
        have hkind' := hawaits.kind_eq.trans hkind
        by_cases hended : after.program.ended = true
        · exact .inl (hafter.listener.ended hafter.conforms hnext hkind' hended)
        · refine .inr (Cluster.announced_iff.mpr (.inr ⟨after, List.mem_of_getElem? hnext, ?_⟩))
          have hrunning : after.running = true := by cases hawaits <;> assumption
          exact Control.hears_iff.mpr ⟨by simp [Control.live, hrunning, hended], acquisition, hkind'⟩
      · exact .inr (hkept (List.mem_of_getElem? ((List.getElem?_set_ne htarget).trans hcontrol)))

/-- **Whoever attends to a turn hands it on.** -/
theorem Cluster.Steps.attended (hsteps : cluster.Steps action next) (h : cluster.Tended)
    (hafter : next.Tended) (htends : cluster.tends turnId action = true)
    (hattended : cluster.attended turnId = true) :
    next.world.decided turnId = true ∨ next.attended turnId = true := by
  have hannounced : next.announced turnId = true → next.attended turnId = true := fun hannounced =>
    Cluster.attended_iff.mpr (.inr (.inr (.inr hannounced)))
  have hkeeps := (Cluster.tends_iff.mp htends).2.2.2
  rcases Cluster.attended_iff.mp hattended with hqueue | ⟨execution, hmem, hworks⟩ | hlease | hbefore
  · exact .inr (hsteps.queued hqueue)
  · exact hsteps.worked h hafter htends hmem hworks
  · obtain ⟨entry, hentry⟩ := Option.isSome_iff_exists.mp hlease
    cases hlater : next.world.lease turnId with
    | some later => exact .inr (Cluster.attended_iff.mpr (.inr (.inr (.inl (by simp [hlater])))))
    | none =>
        rcases hsteps.lease_lost hentry hlater with hnotice | hop
        · exact .inr (hannounced (Cluster.announced_iff.mpr (.inl hnotice)))
        · obtain ⟨execution, hmem, hworks⟩ := h.releases hentry hop hsteps
          exact hsteps.worked h hafter htends hmem hworks
  · rcases Cluster.announced_iff.mp hbefore with hnotice | ⟨control, hmem, hhears⟩
    · exact .inr (hannounced (hsteps.noticed hkeeps hnotice))
    · exact (hsteps.heard hafter hkeeps hmem hhears).imp (fun hdecided => hdecided) hannounced

/-- What is enqueued in a step is in the queue. -/
theorem Cluster.Steps.enqueued (hsteps : cluster.Steps action next)
    (henqueued : next.world.enqueued turnId = true) :
    cluster.world.enqueued turnId = true ∨ next.world.queue turnId = true := by
  have hperformed : ∀ (self : Nat) (lost : Bool) (op : Op),
      (cluster.world.perform self lost op).2.enqueued turnId = true →
      cluster.world.enqueued turnId = true ∨
        (cluster.world.perform self lost op).2.queue turnId = true := by
    intro self lost op hafter
    rcases (perform_effect cluster.world self lost op).queue with
      ⟨_, hkept⟩ | ⟨target, _, hput, hput'⟩
    · exact .inl (hkept ▸ hafter)
    · by_cases htarget : turnId = target
      · right
        simp [hput, htarget]
      · left
        simpa [hput', Function.update_of_ne htarget] using hafter
  cases hsteps with
  | tick | deliver | redeliver | spawn | notice | quit | miss => exact .inl henqueued
  | crash => exact .inl henqueued
  | advance id raised hexecution hawaits =>
      cases hawaits with
      | answered => exact hperformed _ _ _ henqueued
      | raised => exact .inl henqueued
  | @beat id raised execution heartbeat =>
      rcases heartbeat.await_world cluster.world id raised with hkept | ⟨op, _, _, hworld⟩
      · exact .inl (hkept ▸ henqueued)
      · simp only [hworld] at henqueued ⊢
        exact hperformed _ _ _ henqueued
  | control id raised hcontrol hawaits =>
      cases hawaits with
      | answered => exact hperformed _ _ _ henqueued
      | raised => exact .inl henqueued

/-- **No active turn is orphaned.** While PostgreSQL and Redis succeed, no dead process shuts down, no
execution takes another one for the owner that is not there, and no message about the lease is lost, a
turn that was enqueued is decided or attended to. -/
theorem no_turn_orphaned {users : Nat → Bool}
    (hreach : Reach Cluster.step (fun cluster action => cluster.tends turnId action = true)
      (Cluster.init users) cluster) (henqueued : cluster.world.enqueued turnId = true) :
    cluster.world.decided turnId = true ∨ cluster.attended turnId = true := by
  induction hreach with
  | refl => cases henqueued
  | tail action hbefore htends hstep ih =>
      have hsteps := Cluster.steps_of_step hstep
      have hafter := reach_tended (.tail action hbefore htends hstep)
      have hknown := reach_tended hbefore
      rcases hsteps.enqueued henqueued with hold | hqueue
      · rcases ih hold with hdecided | hattended
        · exact .inl (hsteps.decided hknown.timed hdecided)
        · exact hsteps.attended hknown hafter htends hattended
      · exact .inr (Cluster.attended_iff.mpr (.inl hqueue))

end

/-! ### A turn that is redelivered after a crash -/

/-- The worker dies after these awaits of the execution, the next one finds the chat lock, and the
keys run out. -/
def redeliveredTurn (awaits : Nat) : List ClusterAction :=
  executedTurn (List.replicate awaits (.advance 0 none) ++ .crash 1 :: .deliver answered false ::
    List.replicate 4 (.advance 1 none) ++ List.replicate 30 .tick)

/-- Whether the turn was enqueued, is decided and is attended to. -/
def Cluster.attendance (cluster : Cluster) : Bool × Bool × Bool :=
  (cluster.world.enqueued 1, cluster.world.decided 1, cluster.attended 1)

set_option maxRecDepth 2000 in
/-- The message about the lease is all that is left. -/
theorem no_turn_orphaned_redelivered : ∃ cluster,
    run Cluster.step (Cluster.init fun _ => true) (redeliveredTurn 4) = some cluster ∧
    cluster.attended 1 = true := by
  have hallowed : RunAllowed Cluster.step (fun cluster action => cluster.tends 1 action = true)
      (Cluster.init fun _ => true) (redeliveredTurn 4) := by decide
  have hseen : (run Cluster.step (Cluster.init fun _ => true) (redeliveredTurn 4)).map (fun cluster =>
      (cluster.world.enqueued 1, cluster.world.decided 1)) = some (true, false) := by decide
  obtain ⟨cluster, hrun, hcluster⟩ := Option.map_eq_some_iff.mp hseen
  obtain ⟨henqueued, hopen⟩ := Prod.mk.inj hcluster
  exact ⟨cluster, hrun, (no_turn_orphaned (reach_of_run hrun hallowed) henqueued).resolve_left
    (by simp [hopen])⟩

/-- No listener is subscribed when the lease expires, and nobody attends to the active turn any more. -/
example : (run Cluster.step (Cluster.init fun _ => true) (redeliveredTurn 4 ++ [.miss 1 1])).map
    Cluster.attendance = some (true, false, false) := by
  decide

/-- The worker dies between the chat lock and the lease. The execution after it takes the dead one
for the owner, and nobody attends to the active turn any more. -/
example : (run Cluster.step (Cluster.init fun _ => true) (redeliveredTurn 3)).map
    Cluster.attendance = some (true, false, false) := by
  decide

end CodexServer
