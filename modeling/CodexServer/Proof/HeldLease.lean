import CodexServer.Proof.Awaits
import CodexServer.Proof.ExecutionConduct

/-!
# A lease that was taken is given back

An execution that has taken its lease does not come to its end before Redis has answered the command
that releases it, unless an access to PostgreSQL or Redis has failed.
-/

open Async

namespace CodexServer

/-! ### What is watched -/

def heldAfter (held : Option Bool) : (op : Op) → op.Val → Option Bool
  | .setLeaseNx .., acquired => held.map fun _ => acquired
  | .releaseLease .., _ => held.map fun _ => false
  | _, _ => held

/-- Whether the lease is taken and not released; nothing is said once an access has failed. -/
def leaseMonitor : Monitor Op Op.Val Fault (Option Bool) where
  allowed _ _ := True
  next held op
    | .ok value => heldAfter held op value
    | .error _ => if op.isExternal then held else none

def Op.isLeaseChange : Op → Bool
  | .setLeaseNx .. | .releaseLease .. => true
  | _ => false

theorem leaseMonitor_other {op : Op} (hop : op.isLeaseChange = false) (held : Option Bool)
    (answer : Except Fault op.Val) :
    leaseMonitor.next held op answer = held ∨ leaseMonitor.next held op answer = none := by
  cases answer with
  | ok value =>
      left
      cases op with
      | setLeaseNx | releaseLease => cases hop
      | _ => rfl
  | error failure =>
      change (if op.isExternal then held else none) = held ∨ (if op.isExternal then held else none) = none
      split
      · exact .inl rfl
      · exact .inr rfl

theorem leaseMonitor_failed {op : Op} (hop : op.isExternal = false) (held : Option Bool)
    (failure : Fault) : leaseMonitor.next held op (.error failure) = none := by
  change (if op.isExternal then held else none) = none
  simp [hop]

/-! ### What is kept -/

abbrev leaseWp {α : Type} (code : ExecCode α)
    (post : Except Exn α → ExecLocals → Option Bool → Prop) (locals : ExecLocals)
    (held : Option Bool) : Prop :=
  Async.wp leaseMonitor (fun out _ _ => nomatch out) code post locals held

abbrev LeaseKeeps {α : Type} (Inv : ExecLocals → Option Bool → Prop) (code : ExecCode α) : Prop :=
  Keeps leaseMonitor (fun out _ _ => nomatch out) Inv code

/-- The execution does not have the lease. -/
def Unheld (_ : ExecLocals) (held : Option Bool) : Prop := held ≠ some true

/-- If it has, the teardown will find that out. -/
def Bound (locals : ExecLocals) (held : Option Bool) : Prop :=
  held = some true → locals.heartbeatTask = true ∧ locals.leaseHolder.isSome = true

section

variable {cfg : ExecConfig} {turn : TurnRow} {locals : ExecLocals} {held : Option Bool}

theorem bound_none : Bound locals none := fun hnone => by cases hnone

theorem Unheld.bound (h : Unheld locals held) : Bound locals held := fun hheld => absurd hheld h

theorem Bound.other (h : Bound locals held) {op : Op} (hop : op.isLeaseChange = false)
    (answer : Except Fault op.Val) : Bound locals (leaseMonitor.next held op answer) := by
  rcases leaseMonitor_other hop held answer with hkept | hnone
  · rw [hkept]
    exact h
  · rw [hnone]
    exact bound_none

theorem Unheld.other (h : Unheld locals held) {op : Op} (hop : op.isLeaseChange = false)
    (answer : Except Fault op.Val) : Unheld locals (leaseMonitor.next held op answer) := by
  rcases leaseMonitor_other hop held answer with hkept | hnone
  · rw [hkept]
    exact h
  · rw [hnone]
    exact fun hsome => by cases hsome

theorem await_bound {op : Op} (hop : op.isLeaseChange = false) : LeaseKeeps Bound (await op) :=
  keeps_await Exn.fault fun _ _ h => ⟨trivial, h.other hop⟩

theorem await_unheld {op : Op} (hop : op.isLeaseChange = false) : LeaseKeeps Unheld (await op) :=
  keeps_await Exn.fault fun _ _ h => ⟨trivial, h.other hop⟩

theorem modify_bound {change : ExecLocals → ExecLocals}
    (htask : ∀ locals, (change locals).heartbeatTask = locals.heartbeatTask)
    (hholder : ∀ locals, (change locals).leaseHolder = locals.leaseHolder) :
    LeaseKeeps Bound (Async.modifyLocal change) := by
  refine keeps_modifyLocal change fun locals held h hheld => ?_
  rw [htask, hholder]
  exact h hheld

theorem publish_bound (turnId : Nat) (event : ChatEvent) : LeaseKeeps Bound (publish turnId event) :=
  (await_bound rfl).bind monotone_nothing fun _ =>
    (await_bound rfl).bind monotone_nothing fun _ => keeps_pure _

theorem publish_unheld (turnId : Nat) (event : ChatEvent) :
    LeaseKeeps Unheld (publish turnId event) :=
  (await_unheld rfl).bind monotone_nothing fun _ =>
    (await_unheld rfl).bind monotone_nothing fun _ => keeps_pure _

/-! ### The stream -/

theorem isLeaseChange_of_stream {op : Op} (hop : isStreamOp op = true) :
    op.isLeaseChange = false := by
  cases op with
  | setLeaseNx | releaseLease => cases hop
  | _ => rfl

theorem forwardFrame_bound (event : ChatEvent) : LeaseKeeps Bound (forwardFrame cfg event) := by
  refine (await_bound rfl).bind monotone_nothing fun lost => Keeps.ite ?_ ?_
  · exact (modify_bound (fun _ => rfl) fun _ => rfl).bind monotone_nothing fun _ => keeps_pure _
  · refine (publish_bound cfg.turnId event).bind monotone_nothing fun _ =>
      (await_bound rfl).bind monotone_nothing fun _ => ?_
    split
    · exact (modify_bound (fun _ => rfl) fun _ => rfl).bind monotone_nothing fun _ => keeps_pure _
    · exact keeps_pure _

theorem runCodexTurn_bound : LeaseKeeps Bound (runCodexTurn cfg turn) := by
  have hloop : LeaseKeeps Bound
      (Async.forEach (forwardFrame cfg) (Async.generator (streamTurn cfg turn) {})) :=
    Keeps.forEach monotone_nothing forwardFrame_bound streamTurn_only fun _ hop _ _ h =>
      ⟨trivial, h.other (isLeaseChange_of_stream hop)⟩
  exact (await_bound rfl).bind monotone_nothing fun _ =>
    Keeps.tryFinally monotone_nothing (hloop.bind monotone_nothing fun _ => keeps_pure _)
      (await_bound rfl)

/-! ### The lease -/

abbrev LeaseTriple {α : Type} (pre : ExecLocals → Option Bool → Prop) (code : ExecCode α)
    (post : α → ExecLocals → Option Bool → Prop) (raises : Exn → ExecLocals → Option Bool → Prop) :
    Prop :=
  Triple leaseMonitor (fun out _ _ => nomatch out) pre code post raises

theorem unheld_none (locals : ExecLocals) : Unheld locals none := fun hnone => by cases hnone

theorem unheld_refused (locals : ExecLocals) (held : Option Bool) :
    Unheld locals (held.map fun _ => false) := by
  cases held <;> exact fun hsome => by cases hsome

/-- A lease that is refused is not held. -/
theorem leaseAcquire_spec (holder : Nat) : LeaseTriple Unheld (Lease.acquire cfg.turnId holder)
    (fun acquired locals held => acquired = false → Unheld locals held) fun _ => Bound := by
  intro locals held h
  unfold Lease.acquire
  rw [wp_bind, wp_orOnRedisError]
  refine (wp_await _).mpr ⟨trivial, fun acquired => ?_, fun failure => ?_⟩
  · rw [either_ok, either_ok, wp_ite]
    split
    · rw [wp_bind]
      refine (wp_await _).mpr ⟨trivial, fun _ => ?_, fun failure => ?_⟩
      · intro hrefused
        cases hrefused
      · rw [leaseMonitor_failed (by rfl)]
        exact bound_none
    · rename_i hrefused
      intro _
      rw [Bool.not_eq_true] at hrefused
      subst hrefused
      exact unheld_refused locals held
  · rw [leaseMonitor_failed (by rfl)]
    cases failure with
    | redisError => exact fun _ => unheld_none locals
    | cancelled | timeout | rpcError | staleTurnStream | staleSidecarTurn | queueError | other =>
        exact bound_none

theorem withOutcome_spec (outcome : LockAcquireOutcome) :
    LeaseTriple Unheld (withOutcome cfg turn outcome) (fun _ => Bound) fun _ => Bound := by
  intro locals held h
  cases outcome with
  | redelivery => exact modify_bound (fun _ => rfl) (fun _ => rfl) locals held h.bound
  | activeBusy => exact modify_bound (fun _ => rfl) (fun _ => rfl) locals held h.bound
  | acquired =>
      unfold withOutcome
      rw [wp_bind]
      refine (leaseAcquire_spec cfg.holder).call monotone_nothing h ?_ fun _ _ _ herror => herror
      intro leased locals held h
      rw [either_ok, wp_ite]
      split
      · -- from here on the teardown knows the holder, and then that there is a heartbeat
        rw [wp_bind, wp_modifyLocal, either_ok, wp_bind]
        refine (wp_await _).mpr ⟨trivial, fun _ => ?_, fun failure => ?_⟩
        · rw [either_ok, wp_bind, wp_modifyLocal, either_ok]
          exact runCodexTurn_bound _ _ fun _ => ⟨rfl, rfl⟩
        · rw [leaseMonitor_failed (by rfl)]
          exact bound_none
      · rename_i hrefused
        exact modify_bound (fun _ => rfl) (fun _ => rfl) locals held (h (by simpa using hrefused)).bound

theorem releaseActive_bound (chatId turnId : Nat) :
    LeaseKeeps Bound (Locks.releaseActive chatId turnId) := by
  unfold Locks.releaseActive
  exact keeps_orOnRedisError monotone_nothing (await_bound rfl) _

theorem tryAcquireActive_unheld (chatId turnId : Nat) :
    LeaseKeeps Unheld (Locks.tryAcquireActive chatId turnId) := by
  unfold Locks.tryAcquireActive
  exact keeps_orOnRedisError monotone_nothing (await_unheld rfl) _

theorem outcomeUnlocked_unheld (chatId turnId : Nat) :
    LeaseKeeps Unheld (Locks.outcomeUnlocked chatId turnId) := by
  unfold Locks.outcomeUnlocked Locks.activeLockValue
  exact (keeps_orOnRedisError monotone_nothing (await_unheld rfl) _).bind monotone_nothing fun _ =>
    keeps_pure _

theorem holdTurnLocks_bound : LeaseTriple Unheld
    (Locks.holdTurnLocks turn.chatId cfg.turnId (withOutcome cfg turn)) (fun _ => Bound)
    fun _ => Bound := by
  intro locals held h
  unfold Locks.holdTurnLocks
  rw [wp_bind]
  refine (tryAcquireActive_unheld turn.chatId cfg.turnId).call monotone_nothing h ?_
    fun _ _ _ hraised => hraised.bound
  intro acquired locals held h
  rw [either_ok, wp_ite]
  split
  · rw [wp_tryFinally]
    have hrelease : LeaseKeeps Bound (do
        let _ ← Locks.releaseActive turn.chatId cfg.turnId
        pure ()) := (releaseActive_bound _ _).bind monotone_nothing fun _ => keeps_pure _
    refine (withOutcome_spec .acquired).call monotone_nothing h ?_ ?_
    · exact fun _ locals held hbound => hrelease.call monotone_nothing hbound
        (fun _ _ _ hafter => hafter) fun _ _ _ hafter => hafter
    · exact fun _ locals held hbound => hrelease.call monotone_nothing hbound
        (fun _ _ _ hafter => hafter) fun _ _ _ hafter => hafter
  · rw [wp_bind]
    refine (outcomeUnlocked_unheld turn.chatId cfg.turnId).call monotone_nothing h ?_
      fun _ _ _ hraised => hraised.bound
    exact fun outcome locals held hunheld => withOutcome_spec outcome locals held hunheld

/-! ### The way out -/

theorem executionFailed_bound (error : Exn) : LeaseKeeps Bound (executionFailed cfg error) := by
  have hcrash (detail : String) : LeaseKeeps Bound (do
      Async.modifyLocal fun locals =>
        { locals with
          terminalStatus := some .failed
          terminalError := (some "codex_error", some detail) }
      exceptException
        (do
          let _ ← publish cfg.turnId (errorEvent CodexErrorCode.codexError (some detail))
          Async.modifyLocal fun locals => { locals with terminalPublished := true })
        fun _ => pure ()) := by
    refine (modify_bound (fun _ => rfl) fun _ => rfl).bind monotone_nothing fun _ => ?_
    refine keeps_exceptException monotone_nothing ?_ fun _ => keeps_pure _
    exact (publish_bound _ _).bind monotone_nothing fun _ => modify_bound (fun _ => rfl) fun _ => rfl
  unfold executionFailed
  split
  · exact (modify_bound (fun _ => rfl) fun _ => rfl).bind monotone_nothing fun _ => keeps_throw _
  · exact hcrash _

theorem releaseHeld_unheld (holder : Option Nat) :
    LeaseTriple (fun _ held => held = some true → holder.isSome = true) (releaseHeld cfg holder)
      (fun _ => Unheld) fun _ => Unheld := by
  intro locals held h
  cases holder with
  | none => exact fun hheld => by cases h hheld
  | some holder =>
      unfold releaseHeld Lease.release
      rw [wp_bind, wp_bind]
      refine (wp_await _).mpr ⟨trivial, fun _ => ?_, fun failure => ?_⟩
      · rw [either_ok, wp_orOnRedisError]
        refine (wp_await _).mpr ⟨trivial, fun _ => unheld_refused locals _, fun failure => ?_⟩
        rw [leaseMonitor_failed (by rfl)]
        cases failure <;> exact unheld_none locals
      · rw [leaseMonitor_failed (by rfl)]
        exact unheld_none locals

theorem teardown_unheld : LeaseTriple Bound (teardown cfg) (fun _ => Unheld) fun _ => Unheld := by
  intro locals held h
  unfold teardown
  rw [wp_bind, wp_getLocal, either_ok, wp_ite]
  split
  · rw [wp_bind, wp_attempt]
    exact (wp_await _).mpr
      ⟨trivial, fun _ => releaseHeld_unheld _ _ _ fun hheld => (h.other (by rfl) _ hheld).2,
        fun _ => releaseHeld_unheld _ _ _ fun hheld => (h.other (by rfl) _ hheld).2⟩
  · rename_i htask
    exact fun hheld => htask (h hheld).1

theorem getLocal_unheld : LeaseKeeps Unheld (Async.getLocal : ExecCode ExecLocals) :=
  fun _ _ h => h

theorem publishSafetyTerminal_unheld : LeaseKeeps Unheld (publishSafetyTerminal cfg) := by
  refine getLocal_unheld.bind monotone_nothing fun locals => (keeps_pure _).ite ?_
  exact keeps_exceptException monotone_nothing
    ((publish_unheld _ _).bind monotone_nothing fun _ => keeps_pure _) fun _ => keeps_pure _

theorem finalizeTurn_unheld : LeaseKeeps Unheld (finalizeTurn cfg) := by
  refine getLocal_unheld.bind monotone_nothing fun locals => ?_
  split
  · exact (keeps_pure _).ite ((await_unheld rfl).bind monotone_nothing fun _ => keeps_pure _)
  · exact keeps_pure _

theorem executionFinally_unheld : LeaseTriple Bound (executionFinally cfg) (fun _ => Unheld)
    fun _ => Unheld := by
  refine teardown_unheld.bind monotone_nothing fun _ =>
    publishSafetyTerminal_unheld.bind monotone_nothing fun _ =>
      finalizeTurn_unheld.bind monotone_nothing fun _ =>
        getLocal_unheld.bind monotone_nothing fun locals => ?_
  refine (keeps_pure ()).ite ((await_unheld rfl).bind monotone_nothing fun _ => ?_)
  exact (await_unheld rfl).ite (keeps_pure ())

theorem executeLoaded_unheld (h : Unheld locals held) :
    leaseWp (executeLoaded cfg turn) (fun _ => Unheld) locals held := by
  unfold executeLoaded
  rw [leaseWp, wp_tryFinally, wp_tryCatch]
  refine holdTurnLocks_bound.call monotone_nothing h ?_ fun error locals held hbound => ?_
  · exact fun _ locals held hbound => executionFinally_unheld.call monotone_nothing hbound
      (fun _ _ _ hafter => hafter) fun _ _ _ hafter => hafter
  · rw [either_error]
    refine (executionFailed_bound error).call monotone_nothing hbound ?_ ?_ <;>
    · exact fun _ locals held hbound => executionFinally_unheld.call monotone_nothing hbound
        (fun _ _ _ hafter => hafter) fun _ _ _ hafter => hafter

/-- **A lease that was taken is given back.** -/
theorem executeTurn_unheld (cfg : ExecConfig) : (executeTurn cfg).wp leaseMonitor
    (fun out _ _ => nomatch out) (fun _ held => held ≠ some true) (some false) := by
  have hinner : leaseWp (executeTurnInner cfg) (fun _ => Unheld) {} (some false) := by
    unfold leaseWp executeTurnInner
    have hstart : Unheld {} (some false) := fun hheld => by cases hheld
    refine (wp_await_bind _ _).mpr ⟨trivial, fun found => ?_, fun failure => ?_⟩
    · cases found with
      | none => exact hstart
      | some turn =>
          rw [wp_ite]
          split
          · exact hstart
          · refine (wp_await_bind _ _).mpr ⟨trivial, fun user => ?_, fun failure => ?_⟩
            · rw [wp_ite]
              split
              · exact executeLoaded_unheld hstart
              · exact hstart
            · rw [leaseMonitor_failed (by rfl)]
              exact unheld_none {}
    · rw [leaseMonitor_failed (by rfl)]
      exact unheld_none {}
  unfold executeTurn
  rw [Program.wp_bind]
  exact hinner

end

end CodexServer
