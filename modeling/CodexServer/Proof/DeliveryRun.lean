import CodexServer.Slots
import CodexServer.Proof.Awaits

/-!
# When a delivery gives the slot back

The locked part of an execution never releases the slot, and whether it skips the turn shows in two
answers. The `finally` clause ends with the release, which it reaches if nothing is raised through it.
-/

open Async
open Program (Runs recorder record monotone_record)

namespace CodexServer.Slots

variable {cfg : ExecConfig} {turn : TurnRow} {moves : List ExecMove}

/-! ### The locked part -/

/-- The operations that say nothing about the slot. -/
def isPlainOp : Op → Bool
  | .getActive _ | .setLeaseNx .. | .external .decrActive => false
  | _ => true

/-- Nothing is released, and the execution skips the turn if and only if it was told to. -/
def Clear (turnId : Nat) (locals : ExecLocals) (moves : List ExecMove) : Prop :=
  locals.redeliverySkip = skips turnId moves ∧ moves.countP isJobRelease = 0

theorem skips_append (turnId : Nat) (moves : List ExecMove) (move : ExecMove) :
    skips turnId (moves ++ [move]) = (skips turnId moves || skips turnId [move]) := by
  simp [skips]

theorem Clear.append {turnId : Nat} {locals : ExecLocals} {move : ExecMove}
    (h : Clear turnId locals moves) (hmove : isJobRelease move = false) {later : ExecLocals}
    (hlater : later.redeliverySkip = (locals.redeliverySkip || skips turnId [move])) :
    Clear turnId later (moves ++ [move]) := by
  refine ⟨?_, ?_⟩
  · rw [hlater, h.1, skips_append]
  · rw [List.countP_append, h.2]
    simp [hmove]

theorem Clear.plain {turnId : Nat} {locals : ExecLocals} (h : Clear turnId locals moves) {op : Op}
    (hop : isPlainOp op = true) (answer : Except Fault op.Val) :
    Clear turnId locals (moves ++ [.did op answer]) := by
  have hmove : isJobRelease (.did op answer) = false ∧ skips turnId [.did op answer] = false := by
    cases op with
    | external call => cases call <;> first | exact ⟨rfl, rfl⟩ | cases hop
    | getActive | setLeaseNx => cases hop
    | _ => exact ⟨rfl, rfl⟩
  exact h.append hmove.1 (by rw [hmove.2, Bool.or_false])

abbrev KeepsClear {α : Type} (turnId : Nat) (code : ExecCode α) : Prop :=
  Keeps recorder record (Clear turnId) code

theorem await_clear {turnId : Nat} {op : Op} (hop : isPlainOp op = true) :
    KeepsClear turnId (await op) :=
  keeps_await Exn.fault fun _ _ h => ⟨trivial, fun answer => h.plain hop answer⟩

theorem modifyLocal_clear {turnId : Nat} (change : ExecLocals → ExecLocals)
    (hchange : ∀ locals, (change locals).redeliverySkip = locals.redeliverySkip) :
    KeepsClear turnId (Async.modifyLocal change) :=
  keeps_modifyLocal change fun locals _ h => ⟨(hchange locals).trans h.1, h.2⟩

theorem publish_clear {turnId : Nat} (event : ChatEvent) :
    KeepsClear turnId (publish cfg.turnId event) :=
  (await_clear rfl).bind monotone_record fun _ =>
    (await_clear rfl).bind monotone_record fun _ => keeps_pure _

theorem forwardFrame_clear {turnId : Nat} (frame : ChatEvent) :
    KeepsClear turnId (forwardFrame cfg frame) := by
  refine (await_clear rfl).bind monotone_record fun lost => Keeps.ite ?_ ?_
  · exact (modifyLocal_clear _ fun _ => rfl).bind monotone_record fun _ => keeps_pure _
  · refine (publish_clear frame).bind monotone_record fun _ => ?_
    refine (await_clear rfl).bind monotone_record fun _ => ?_
    split
    · exact (modifyLocal_clear _ fun _ => rfl).bind monotone_record fun _ => keeps_pure _
    · exact keeps_pure _

theorem isPlainOp_of_stream {op : Op} (hop : isStreamOp op = true) : isPlainOp op = true := by
  cases op with
  | external call => cases call <;> first | rfl | cases hop
  | getActive | setLeaseNx => cases hop
  | _ => rfl

theorem runCodexTurn_clear {turnId : Nat} : KeepsClear turnId (runCodexTurn cfg turn) := by
  refine (await_clear rfl).bind monotone_record fun _ => ?_
  refine Keeps.tryFinally monotone_record ?_ (await_clear rfl)
  have hloop : KeepsClear turnId (Async.forEach (forwardFrame cfg)
      (Async.generator (streamTurn cfg turn) {})) :=
    Keeps.forEach monotone_record forwardFrame_clear streamTurn_only fun op hop _ _ h =>
      ⟨trivial, fun answer => h.plain (isPlainOp_of_stream hop) answer⟩
  exact hloop.bind monotone_record fun _ => keeps_pure _

/-- The lease decides first whether the execution skips the turn. -/
theorem withOutcome_acquired_clear : KeepsClear cfg.turnId (withOutcome cfg turn .acquired) := by
  intro locals moves h
  have hleased : KeepsClear cfg.turnId (do
      Async.modifyLocal fun locals => { locals with leaseHolder := some cfg.holder }
      await (.startHeartbeat cfg.turnId turn.chatId cfg.holder)
      Async.modifyLocal fun locals => { locals with heartbeatTask := true }
      runCodexTurn cfg turn) :=
    (modifyLocal_clear _ fun _ => rfl).bind monotone_record fun _ =>
      (await_clear rfl).bind monotone_record fun _ =>
        (modifyLocal_clear _ fun _ => rfl).bind monotone_record fun _ => runCodexTurn_clear
  have hsame {answer : Except Fault Bool}
      (hskips : skips cfg.turnId [.did (.setLeaseNx cfg.turnId cfg.holder) answer] = false) :
      Clear cfg.turnId locals (moves ++ [.did (.setLeaseNx cfg.turnId cfg.holder) answer]) :=
    h.append rfl (by rw [hskips, Bool.or_false])
  have hrefused {answer : Except Fault Bool}
      (hskips : skips cfg.turnId [.did (.setLeaseNx cfg.turnId cfg.holder) answer] = true) :
      Clear cfg.turnId { locals with redeliverySkip := true }
        (moves ++ [.did (.setLeaseNx cfg.turnId cfg.holder) answer]) :=
    h.append rfl (by rw [hskips, Bool.or_true])
  unfold withOutcome Lease.acquire
  rw [wp_bind, wp_bind, wp_orOnRedisError]
  refine (wp_await _).mpr ⟨trivial, fun acquired => ?_, fun fault => ?_⟩
  · cases acquired with
    | false => exact hrefused rfl
    | true =>
        refine (wp_await_bind _ _).mpr ⟨trivial, fun _ => ?_, fun fault => ?_⟩
        · exact hleased _ _ ((hsame rfl).plain rfl _)
        · exact (hsame rfl).plain rfl _
  · cases fault with
    | redisError text => exact hrefused rfl
    | cancelled | timeout | rpcError | staleTurnStream | staleSidecarTurn | queueError | other =>
        exact hsame rfl

/-- The lock decides it when somebody else has it. -/
theorem outcomeUnlocked_clear : KeepsClear cfg.turnId (do
    let outcome ← Locks.outcomeUnlocked turn.chatId cfg.turnId
    withOutcome cfg turn outcome) := by
  intro locals moves h
  have hsame {answer : Except Fault (Option Nat)} {later : ExecLocals}
      (hlater : later.redeliverySkip = locals.redeliverySkip)
      (hskips : skips cfg.turnId [.did (.getActive turn.chatId) answer] = false) :
      Clear cfg.turnId later (moves ++ [.did (.getActive turn.chatId) answer]) :=
    h.append rfl (by rw [hskips, Bool.or_false, hlater])
  unfold Locks.outcomeUnlocked Locks.activeLockValue
  rw [wp_bind, wp_bind, wp_orOnRedisError]
  refine (wp_await _).mpr ⟨trivial, fun holder => ?_, fun fault => ?_⟩
  · by_cases hholder : holder = some cfg.turnId
    · rw [either_ok, either_ok, wp_pure, either_ok, if_pos hholder]
      exact h.append rfl (by simp [skips, hholder])
    · rw [either_ok, either_ok, wp_pure, either_ok, if_neg hholder]
      exact hsame rfl (by simp [skips, hholder])
  · cases fault with
    | redisError text => exact hsame rfl rfl
    | cancelled | timeout | rpcError | staleTurnStream | staleSidecarTurn | queueError | other =>
        exact hsame rfl rfl

theorem executeLocked_clear : KeepsClear cfg.turnId (executeLocked cfg turn) := by
  refine Keeps.tryCatch monotone_record ?_ fun error => ?_
  · refine (keeps_orOnRedisError monotone_record (await_clear rfl) _).bind monotone_record
      fun acquired => Keeps.ite ?_ outcomeUnlocked_clear
    refine withOutcome_acquired_clear.tryFinally monotone_record ?_
    exact (keeps_orOnRedisError monotone_record (await_clear rfl) _).bind monotone_record
      fun _ => keeps_pure _
  · have hcrash (error : Exn) : KeepsClear cfg.turnId (do
        let detail := "background crashed: " ++ error.text
        Async.modifyLocal fun locals =>
          { locals with
            terminalStatus := some .failed
            terminalError := (some "codex_error", some detail) }
        exceptException
          (do
            let _ ← publish cfg.turnId (errorEvent CodexErrorCode.codexError (some detail))
            Async.modifyLocal fun locals => { locals with terminalPublished := true })
          fun _ => pure ()) := by
      refine (modifyLocal_clear _ fun _ => rfl).bind monotone_record fun _ => ?_
      refine keeps_exceptException monotone_record ?_ fun _ => keeps_pure ()
      exact (publish_clear _).bind monotone_record fun _ => modifyLocal_clear _ fun _ => rfl
    match error with
    | .fault .cancelled =>
        exact (modifyLocal_clear _ fun _ => rfl).bind monotone_record fun _ => keeps_throw _
    | .codexTurnTerminal status raw => exact hcrash _
    | .fault (.redisError _) | .fault (.timeout _) | .fault (.rpcError _)
    | .fault (.staleTurnStream _) | .fault (.staleSidecarTurn _) | .fault (.queueError _)
    | .fault (.other _) => exact hcrash _

/-! ### The `finally` clause -/

/-- Nothing has been raised through the clause so far, and nothing released. -/
def Leaving (skip : Bool) (locals : ExecLocals) (moves : List ExecMove) : Prop :=
  locals.redeliverySkip = skip ∧ moves.countP isJobRelease = 0 ∧ moves.all tolerated = true

def Broken (moves : List ExecMove) : Prop :=
  moves.countP isJobRelease = 0 ∧ moves.all tolerated = false

abbrev LeavingTriple {α : Type} (skip : Bool) (code : ExecCode α) : Prop :=
  Triple recorder record (Leaving skip) code (fun _ => Leaving skip) fun _ _ => Broken

section

variable {skip : Bool} {locals : ExecLocals}

theorem Leaving.append (h : Leaving skip locals moves) {move : ExecMove}
    (hmove : isJobRelease move = false) (htolerated : tolerated move = true) :
    Leaving skip locals (moves ++ [move]) := by
  refine ⟨h.1, ?_, ?_⟩
  · rw [List.countP_append, h.2.1]
    simp [hmove]
  · rw [List.all_append, h.2.2]
    simp [htolerated]

theorem Leaving.broken (h : Leaving skip locals moves) {move : ExecMove}
    (hmove : isJobRelease move = false) (hraised : tolerated move = false) :
    Broken (moves ++ [move]) := by
  refine ⟨?_, ?_⟩
  · rw [List.countP_append, h.2.1]
    simp [hmove]
  · rw [List.all_append, h.2.2]
    simp [hraised]

theorem tolerated_ok (op : Op) (value : op.Val) : tolerated (.did op (.ok value)) = true := by
  cases op with
  | external call => cases call <;> rfl
  | _ => rfl

def releasesSlot : Op → Bool
  | .external .decrActive => true
  | _ => false

theorem isJobRelease_of_op {op : Op} (hop : releasesSlot op = false) (answer : Except Fault op.Val) :
    isJobRelease (.did op answer) = false := by
  cases op with
  | external call => cases call <;> first | rfl | cases hop
  | _ => rfl

theorem await_leaving {op : Op} (hop : releasesSlot op = false)
    (hraised : ∀ fault, tolerated (.did op (.error fault)) = false) :
    LeavingTriple skip (await op) := fun _ _ h =>
  (wp_await _).mpr ⟨trivial,
    fun value => h.append (isJobRelease_of_op hop _) (tolerated_ok op value),
    fun fault => h.broken (isJobRelease_of_op hop _) (hraised fault)⟩

theorem pure_leaving {α : Type} (value : α) : LeavingTriple skip (pure value : ExecCode α) :=
  fun _ _ h => h

theorem releaseHeld_leaving (holder : Option Nat) : LeavingTriple skip (releaseHeld cfg holder) := by
  cases holder with
  | none => exact pure_leaving ()
  | some holder =>
      have hrelease : LeavingTriple skip
          (orOnRedisError (await (.releaseLease cfg.turnId holder)) false : ExecCode Bool) := by
        intro locals moves h
        rw [wp_orOnRedisError]
        refine (wp_await _).mpr ⟨trivial, fun released => h.append rfl rfl, fun fault => ?_⟩
        cases fault with
        | redisError text => exact h.append rfl rfl
        | cancelled | timeout | rpcError | staleTurnStream | staleSidecarTurn | queueError
        | other => exact h.broken rfl rfl
      have hboth : LeavingTriple skip (Lease.release cfg.turnId holder : ExecCode Bool) :=
        (await_leaving rfl fun _ => rfl).bind monotone_record fun _ => hrelease
      exact hboth.bind monotone_record fun _ => pure_leaving ()

theorem teardown_leaving : LeavingTriple skip (teardown cfg) := by
  intro locals moves h
  unfold teardown
  rw [wp_bind, wp_getLocal, either_ok, wp_ite]
  split
  · rw [wp_bind, wp_attempt]
    have hstopped (answer : Except Fault Unit) :
        Leaving skip locals (moves ++ [.did .stopHeartbeat answer]) := by
      refine h.append ?_ ?_
      · cases answer <;> rfl
      · cases answer <;> rfl
    exact (wp_await _).mpr ⟨trivial,
      fun value => releaseHeld_leaving locals.leaseHolder locals _ (hstopped (.ok value)),
      fun fault => releaseHeld_leaving locals.leaseHolder locals _ (hstopped (.error fault))⟩
  · exact h

/-- An `Exception` of the safety frame is swallowed, a cancellation is not. -/
theorem publishSafetyTerminal_leaving : LeavingTriple skip (publishSafetyTerminal cfg) := by
  intro locals moves h
  unfold publishSafetyTerminal
  rw [wp_bind, wp_getLocal, either_ok, wp_ite]
  split
  · exact h
  · unfold publish
    rw [wp_exceptException, wp_bind]
    refine (wp_await_bind _ _).mpr ⟨trivial, fun eventId => ?_, fun fault => ?_⟩
    · have hadded : Leaving skip locals (moves ++ [.did (.xadd cfg.turnId
          (buildTerminalEvent locals.terminalStatus locals.terminalError)) (.ok eventId)]) :=
        h.append rfl rfl
      refine (wp_await_bind _ _).mpr ⟨trivial, fun _ => hadded.append rfl rfl, fun fault => ?_⟩
      cases fault with
      | cancelled => exact hadded.broken rfl rfl
      | redisError | timeout | rpcError | staleTurnStream | staleSidecarTurn | queueError | other =>
          exact hadded.append rfl rfl
    · cases fault with
      | cancelled => exact h.broken rfl rfl
      | redisError | timeout | rpcError | staleTurnStream | staleSidecarTurn | queueError | other =>
          exact h.append rfl rfl

theorem finalizeTurn_leaving : LeavingTriple skip (finalizeTurn cfg) := by
  intro locals moves h
  unfold finalizeTurn
  rw [wp_bind, wp_getLocal, either_ok]
  cases locals.terminalStatus with
  | none => exact h
  | some status =>
      simp only [wp_ite]
      split
      · exact h
      · exact (wp_await_bind _ _).mpr ⟨trivial, fun _ => h.append rfl rfl, fun _ => h.broken rfl rfl⟩

/-- **The `finally` clause.** It releases the slot once, if the execution has not skipped the turn
and nothing is raised through the clause. -/
theorem executionFinally_releases {left : Except Exn Unit} {final : ExecLocals}
    (hrun : Runs (executionFinally cfg locals) moves (left, final)) :
    moves.countP isJobRelease =
      if locals.redeliverySkip = false ∧ moves.all tolerated = true then 1 else 0 := by
  have hspec : Async.wp recorder record (executionFinally cfg) (fun _ _ later =>
      later.countP isJobRelease =
        if locals.redeliverySkip = false ∧ later.all tolerated = true then 1 else 0)
      locals [] := by
    have hbroken {later : List ExecMove} (h : Broken later) : later.countP isJobRelease =
        if locals.redeliverySkip = false ∧ later.all tolerated = true then 1 else 0 := by
      rw [h.1, h.2]
      simp
    have hlast (given : ExecLocals) (before : List ExecMove)
        (h : Leaving locals.redeliverySkip given before) :
        Async.wp recorder record (do
          let locals ← Async.getLocal
          if locals.redeliverySkip then pure () else releaseTurn cfg)
          (fun _ _ later => later.countP isJobRelease =
            if locals.redeliverySkip = false ∧ later.all tolerated = true then 1 else 0)
          given before := by
      rw [wp_bind, wp_getLocal, either_ok, wp_ite, h.1]
      cases hskip : locals.redeliverySkip with
      | true =>
          simp only [if_true]
          exact h.2.1.trans (by simp)
      | false =>
          simp only [Bool.false_eq_true, if_false]
          refine (wp_await_bind _ _).mpr ⟨trivial, fun _ => ?_, fun fault => ?_⟩
          · rw [wp_ite]
            split
            · refine (wp_await _).mpr ⟨trivial, fun _ => ?_, fun _ => ?_⟩ <;>
                simp [recorder, h.2.1, h.2.2, List.countP_cons, isJobRelease, tolerated]
            · rw [wp_pure]
              simp [recorder, h.2.1, h.2.2, isJobRelease, tolerated]
          · simp [recorder, h.2.1, isJobRelease, tolerated]
    unfold executionFinally
    rw [wp_bind]
    refine teardown_leaving.call monotone_record ⟨rfl, rfl, rfl⟩ ?_ fun _ _ _ => hbroken
    intro _ given before h
    rw [either_ok, wp_bind]
    refine publishSafetyTerminal_leaving.call monotone_record h ?_ fun _ _ _ => hbroken
    intro _ given before h
    rw [either_ok, wp_bind]
    refine finalizeTurn_leaving.call monotone_record h ?_ fun _ _ _ => hbroken
    exact fun _ given before h => hlast given before h
  exact hrun.promised hspec

end

/-! ### The delivery -/

/-- **A delivery.** It releases the slot of the turn's user once if it owns the turn, and else not
at all. -/
theorem released_eq (job : JobRun) {userId : Nat}
    (hown : ∀ turn, job.delivery.turn = some turn → turn.userId = userId) :
    job.released userId = if job.owns then slots job.kind else 0 := by
  obtain ⟨cfg, kind, delivery⟩ := job
  cases delivery with
  | executed turn hactive run =>
      have hspec : Async.wp recorder record (executeLocked cfg turn)
          (fun _ => Clear cfg.turnId) {} [] :=
        executeLocked_clear.call monotone_record ⟨rfl, rfl⟩ (fun _ _ _ h => h) fun _ _ _ h => h
      have hlocked : Clear cfg.turnId run.locals run.body := run.locked.promised hspec
      have hcleanup := executionFinally_releases run.cleanup
      rw [hlocked.1] at hcleanup
      have hcount : (Delivery.executed turn hactive run).moves.countP isJobRelease =
          run.leaving.countP isJobRelease := by
        simp [Delivery.moves, Delivery.loads, hlocked.2, isJobRelease]
      have howner : JobRun.owns ⟨cfg, kind, .executed turn hactive run⟩ =
          (!skips cfg.turnId run.body && run.leaving.all tolerated) := rfl
      have huser : (Delivery.executed turn hactive run).turn.map TurnRow.userId = some userId :=
        congrArg some (hown turn rfl)
      unfold JobRun.released
      rw [if_pos huser, hcount, hcleanup, howner]
      cases skips cfg.turnId run.body <;> cases run.leaving.all tolerated <;> simp
  | rowUnread | rowMissing | rowTerminal | userUnread | userMissing =>
      simp [JobRun.released, JobRun.owns, Delivery.moves, Delivery.loads, isJobRelease]

end CodexServer.Slots
