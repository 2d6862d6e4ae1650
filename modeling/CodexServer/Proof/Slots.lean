import CodexServer.Proof.DeliveryRun
import CodexServer.Proof.RateLimit

/-!
# One slot, one release

The handler releases the slot unless it knows that its job is in the queue, and each delivery that
owns the turn releases it once. So a slot is given back once if and only if there is one owner.
-/

open Async
open Program (recorder record monotone_record)

namespace CodexServer

namespace Handler

/-! ### Before the enqueue -/

def isEnqueue : Op → Bool
  | .enqueue _ => true
  | _ => false

/-- The code leaves the queue alone. -/
abbrev Unqueued {α : Type} (code : ControlCode α) : Prop := Awaits (isEnqueue · = false) code

theorem await_unqueued {op : Op} (hop : isEnqueue op = false) : Unqueued (await op) := awaits_op hop

theorem orOnRedisError_unqueued (op : Op) (default : op.Val) (hop : isEnqueue op = false) :
    Unqueued (orOnRedisError (await op) default) := awaits_orOnRedisError (await_unqueued hop) default

theorem releaseActive_unqueued (chatId turnId : Nat) :
    Unqueued (Locks.releaseActive chatId turnId) :=
  orOnRedisError_unqueued (.delActiveIfEq chatId turnId) false rfl

theorem finalizeOrphan_unqueued (turn : TurnRow) : Unqueued (Recovery.finalizeOrphan turn) :=
  (await_unqueued rfl).bind fun _ => (releaseActive_unqueued _ _).bind fun _ => awaits_pure ()

theorem reconcileIfStale_unqueued (turn : TurnRow) : Unqueued (Recovery.reconcileIfStale turn) :=
  (await_unqueued rfl).bind fun _ => (awaits_pure false).ite
    ((finalizeOrphan_unqueued turn).bind fun _ => awaits_pure true)

theorem finalizeZombie_unqueued (active : TurnRow) : Unqueued (finalizeZombie active) :=
  (await_unqueued rfl).bind fun _ => (releaseActive_unqueued _ _).bind fun _ => awaits_pure ()

section

variable (prepared : PreparedRunTurn) (active : TurnRow)

theorem interruptStale_unqueued : Unqueued (interruptStale active) := by
  refine Awaits.ite ((await_unqueued rfl).tryCatch fun error => ?_) (awaits_pure ())
  split
  · exact awaits_pure ()
  · exact (awaits_pure ()).ite (awaits_throw _)

theorem handleStaleTurn_unqueued : Unqueued (handleStaleTurn prepared active) :=
  (interruptStale_unqueued active).bind fun _ =>
    (awaits_quarantineThread (by rfl) _).bind fun _ =>
      (await_unqueued rfl).bind fun _ => awaits_pure ()

theorem sendSteer_unqueued (codexTurnId : String) :
    Unqueued (sendSteer prepared codexTurnId) :=
  (await_unqueued rfl).bind fun _ => Awaits.ite
    ((orOnRedisError_unqueued (.noteSteer _ _) () rfl).bind fun _ => awaits_pure true)
    (awaits_pure false)

theorem trySteerActiveTurn_unqueued (codexTurnId : String) :
    Unqueued (trySteerActiveTurn prepared active codexTurnId) := by
  refine (sendSteer_unqueued prepared codexTurnId).attempt.bind fun outcome => ?_
  split
  · exact (handleStaleTurn_unqueued prepared active).bind fun _ => awaits_pure _
  · exact (awaits_pure none).ite (awaits_throw _)
  · exact awaits_pure none
  · exact (await_unqueued rfl).bind fun _ =>
      (orOnRedisError_unqueued (.bumpSteer _) () rfl).bind fun _ => awaits_pure _

theorem tryInterruptActiveTurn_unqueued :
    Unqueued (tryInterruptActiveTurn prepared active) := by
  have hsend : Unqueued (sendInterrupt prepared active) :=
    ((await_unqueued rfl).bind fun _ => awaits_pure _).ite (awaits_pure false)
  refine hsend.attempt.bind fun outcome => ?_
  split
  · exact (handleStaleTurn_unqueued prepared active).bind fun _ => awaits_pure _
  · exact (awaits_pure _).ite (awaits_throw _)
  · exact awaits_pure _

theorem handleRunningTurn_unqueued (codexTurnId : String) :
    Unqueued (handleRunningTurn prepared active codexTurnId) := by
  refine (awaits_pure _).ite ((trySteerActiveTurn_unqueued prepared active codexTurnId).bind
    fun steered => ?_)
  cases steered with
  | some event => exact awaits_pure _
  | none =>
      refine (tryInterruptActiveTurn_unqueued prepared active).bind fun interrupted => ?_
      obtain ⟨interrupted, event⟩ := interrupted
      cases event with
      | some event => exact awaits_pure _
      | none => exact (awaits_pure none).ite (awaits_pure _)

theorem handleActiveTurn_unqueued : Unqueued (handleActiveTurn prepared) := by
  refine (await_unqueued rfl).bind fun found => ?_
  cases found with
  | none => exact awaits_pure none
  | some active =>
      refine (reconcileIfStale_unqueued active).bind fun stale => (awaits_pure none).ite ?_
      cases active.codexTurnId with
      | none => exact awaits_pure _
      | some codexTurnId =>
          have halive : Unqueued (Lease.exists_ active.id) :=
            orOnRedisError_unqueued (.leaseExists _) false rfl
          exact halive.bind fun alive => Awaits.ite
            (handleRunningTurn_unqueued prepared active codexTurnId)
            ((finalizeZombie_unqueued active).bind fun _ => awaits_pure none)

theorem createWebTurn_unqueued : Unqueued (createWebTurn prepared) := by
  refine (await_unqueued rfl).bind fun created => ?_
  cases created with
  | none => exact awaits_pure _
  | some turn => exact awaits_pure _

end
end Handler

namespace ChatRPC

/-! ### Control code inside the handler -/

section

variable {History α : Type} {monitor : Monitor RequestOp RequestOp.Val Fault History}
  {yields : Empty → (History → Prop) → History → Prop}

/-- What a monitor of the handler sees of its control code. -/
def within (monitor : Monitor RequestOp RequestOp.Val Fault History) :
    Monitor Op Op.Val Fault History where
  allowed history op := monitor.allowed history (.control op)
  next history op answer := monitor.next history (.control op) answer

theorem wp_embed {program : Program Op Op.Val Fault Empty α} {post : α → History → Prop}
    {history : History} : (embed program).wp monitor yields post history ↔
      program.wp (within monitor) yields post history := by
  induction program generalizing history with
  | ret value => rfl
  | call op next ih => exact and_congr_right fun _ => forall_congr' fun answer => ih answer
  | emit out rest => exact nomatch out

theorem wp_control {code : ControlCode α} {post : Except Exn α → RequestLocals → History → Prop}
    {locals : RequestLocals} {history : History} :
    Async.wp monitor yields (control code) post locals history ↔
      Async.wp (within monitor) yields code (fun outcome _ => post outcome locals) () history := by
  unfold control Async.wp
  rw [Program.wp_bind, wp_embed]
  rfl

end

end ChatRPC

namespace Slots

open ChatRPC RateLimit

/-! ### The handler -/

/-- Nothing is released so far, and the handler knows whether it has handed its job over. -/
def Holding (handed : Bool) (locals : RequestLocals) (moves : List RequestMove) : Prop :=
  locals.workerOwnsRateLimit = handed ∧ moves.any isHandover = handed ∧
    moves.countP isRelease = 0 ∧ moves.any isFailedRelease = false

/-- The awaits that neither hand the slot over nor give it back. -/
def isQuiet : RequestOp → Bool
  | .control op => !Handler.isEnqueue op
  | .decrActive => false
  | _ => true

section

variable {handed : Bool} {locals : RequestLocals} {moves : List RequestMove}

theorem Holding.append (h : Holding handed locals moves) {move : RequestMove}
    (hhandover : isHandover move = false) (hrelease : isRelease move = false)
    (hfailed : isFailedRelease move = false) : Holding handed locals (moves ++ [move]) := by
  refine ⟨h.1, ?_, ?_, ?_⟩
  · rw [List.any_append, h.2.1]
    simp [hhandover]
  · rw [List.countP_append, h.2.2.1]
    simp [hrelease]
  · rw [List.any_append, h.2.2.2]
    simp [hfailed]

theorem Holding.quiet (h : Holding handed locals moves) {op : RequestOp} (hop : isQuiet op = true)
    (answer : Except Fault op.Val) : Holding handed locals (moves ++ [.did op answer]) := by
  cases op with
  | control op =>
      cases op with
      | enqueue => cases hop
      | _ => exact h.append rfl rfl rfl
  | decrActive => cases hop
  | reserveTurn | prepareRunTurn | yieldEvent | tail | terminalForTurnId | deleteActive =>
      exact h.append rfl rfl rfl

abbrev KeepsHolding {α : Type} (handed : Bool) (code : RequestCode α) : Prop :=
  Keeps recorder record (Holding handed) code

theorem await_holding {op : RequestOp} (hop : isQuiet op = true) :
    KeepsHolding handed (ChatRPC.await op) :=
  keeps_await Exn.fault fun _ _ h => ⟨trivial, fun answer => h.quiet hop answer⟩

theorem control_holding {α : Type} {code : ControlCode α} (hcode : Handler.Unqueued code) :
    KeepsHolding handed (control code) := by
  intro locals moves h
  rw [wp_control]
  refine (hcode ()).preserves (Holding handed locals) ?_ (fun out => nomatch out) ?_ h
  · intro op hop history hinv
    have hquiet : isQuiet (.control op) = true := by simp [isQuiet, hop]
    exact ⟨trivial, fun answer => hinv.quiet hquiet answer⟩
  · intro result history hinv
    obtain ⟨outcome, _⟩ := result
    cases outcome <;> exact hinv

/-- The job is in the queue if and only if no error event comes back. -/
def Offered (event : Option ChatEvent) (locals : RequestLocals) (moves : List RequestMove) : Prop :=
  match event with
  | some _ => Holding false locals moves
  | none => Holding true { locals with workerOwnsRateLimit := true } moves

theorem enqueueTurn_offered (turn : TurnRow) :
    Triple recorder record (Holding false) (control (Handler.enqueueTurn turn)) Offered
      fun _ => Holding false := by
  intro locals moves h
  have hfailed (fault : Fault) : Holding false locals
      (moves ++ [.did (.control (.enqueue turn.id)) (.error fault)]) := h.append rfl rfl rfl
  have hfinalized (text : String) {before : List RequestMove} (hbefore : Holding false locals before) :
      Async.wp (within recorder) record (do
        let _ ← await (.finalizeOnce turn.id .failed (some "enqueue_failed") (some text))
        pure (some (errorEvent CodexErrorCode.codexError (some ("enqueue failed: " ++ text)))) :
          ControlCode (Option ChatEvent))
        (fun outcome _ => either Offered (fun _ => Holding false) outcome locals) () before :=
    (wp_await_bind _ _).mpr ⟨trivial, fun _ => hbefore.append rfl rfl rfl,
      fun _ => hbefore.append rfl rfl rfl⟩
  rw [wp_control]
  unfold Handler.enqueueTurn
  rw [wp_bind, wp_attempt]
  refine (wp_await _).mpr ⟨trivial, fun _ => ⟨rfl, ?_, ?_, ?_⟩, fun fault => ?_⟩
  · simp [within, recorder, isHandover]
  · simp [within, recorder, h.2.2.1, isRelease]
  · simp [within, recorder, h.2.2.2, isFailedRelease]
  · cases fault with
    | queueError text | redisError text | timeout text => exact hfinalized text (hfailed _)
    | cancelled | rpcError | staleTurnStream | staleSidecarTurn | other => exact hfailed _

theorem forwardTail_holding (turnId : Nat) (events : List ChatEvent) :
    KeepsHolding handed (forwardTail turnId events) := by
  induction events with
  | nil => exact await_holding rfl
  | cons event rest ih =>
      exact (await_holding rfl).bind monotone_record fun _ =>
        (await_holding rfl).bind monotone_record fun _ => ih

theorem yieldTerminal_holding (turnId : Nat) : KeepsHolding handed (yieldTerminal turnId) := by
  refine (await_holding rfl).bind monotone_record fun terminal => ?_
  cases terminal with
  | some event => exact await_holding rfl
  | none => exact keeps_pure ()

/-- Whatever the body of the `try` ends with, the flag is right. -/
def Settled (locals : RequestLocals) (moves : List RequestMove) : Prop :=
  Holding locals.workerOwnsRateLimit locals moves

theorem Holding.settled (h : Holding handed locals moves) : Settled locals moves := by
  obtain ⟨rfl, -, -, -⟩ := id h
  exact h

theorem admitted_settled (request : RunTurnRequest) :
    Triple recorder record (Holding false) (admitted request) (fun _ => Settled)
      fun _ => Settled := by
  have hyield (event : ChatEvent) : Triple recorder record (Holding false) (yieldEvent event)
      (fun _ => Settled) fun _ => Settled :=
    (await_holding rfl).conseq monotone_record (fun _ _ h => h) (fun _ _ _ h => h.settled)
      fun _ _ _ h => h.settled
  have hkept {α : Type} {code : RequestCode α} (hcode : KeepsHolding false code) :
      Triple recorder record (Holding false) code (fun _ => Holding false) fun _ => Settled :=
    hcode.conseq monotone_record (fun _ _ h => h) (fun _ _ _ h => h) fun _ _ _ h => h.settled
  refine (hkept (await_holding rfl)).bind monotone_record fun prepared => ?_
  refine (hkept (control_holding (Handler.handleActiveTurn_unqueued prepared))).bind monotone_record
    fun active => ?_
  cases active with
  | some event => exact hyield event
  | none =>
      refine (hkept (control_holding (Handler.createWebTurn_unqueued prepared))).bind monotone_record
        fun created => ?_
      cases created with
      | error event => exact hyield event
      | ok turn =>
          have hoffered : Triple recorder record (Holding false)
              (control (Handler.enqueueTurn turn)) Offered fun _ => Settled :=
            (enqueueTurn_offered turn).conseq monotone_record (fun _ _ h => h)
              (fun _ _ _ h => h) fun _ _ _ h => h.settled
          refine hoffered.bind monotone_record fun event => ?_
          cases event with
          | some event => exact hyield event
          | none =>
              have hfollowed : KeepsHolding true (do
                  yieldEvent ⟨.turnStarted turn.id, ""⟩
                  forwardTail turn.id request.events
                  yieldTerminal turn.id) :=
                (await_holding rfl).bind monotone_record fun _ =>
                  (forwardTail_holding turn.id request.events).bind monotone_record fun _ =>
                    yieldTerminal_holding turn.id
              intro locals moves h
              unfold followTurn
              rw [wp_bind, wp_modifyLocal, either_ok]
              exact hfollowed.call monotone_record h (fun _ _ _ h => h.settled)
                fun _ _ _ h => h.settled

/-- A slot that the handler has taken is released by it, unless its job is in the queue, and unless
the release fails. -/
def Balanced (moves : List RequestMove) : Prop :=
  moves.any isReserved = true → moves.countP isRelease =
    if moves.any isHandover = true ∨ moves.any isFailedRelease = true then 0 else 1

/-- The DECR decides; the DELETE after it may fail. -/
theorem releaseTurn_balanced {kind : UserKind} (hkind : kind ≠ .admin) (h : Holding false locals moves) :
    Async.wp recorder record (ChatRPC.releaseTurn kind) (fun _ _ => Balanced) locals moves := by
  obtain ⟨-, hhandover, hnone, hfailed⟩ := h
  unfold ChatRPC.releaseTurn
  rw [if_neg hkind, wp_bind]
  refine (Async.wp_await _ _).mpr ⟨trivial, fun remaining => ?_, fun fault => ?_⟩
  · have hgiven : Balanced (moves ++ [.did .decrActive (.ok remaining)]) := fun _ => by
      simp [hhandover, hnone, hfailed, isHandover, isRelease, isFailedRelease]
    have hdeleted (answer : Except Fault Unit) :
        Balanced (moves ++ [.did .decrActive (.ok remaining)] ++ [.did .deleteActive answer]) :=
      fun _ => by
        simp [hhandover, hnone, hfailed, isHandover, isFailedRelease, List.countP_cons, isRelease]
    rw [either_ok, wp_ite]
    split
    · exact (Async.wp_await _ _).mpr ⟨trivial, fun _ => hdeleted _, fun _ => hdeleted _⟩
    · exact hgiven
  · intro _
    simp [recorder, hnone, isRelease, isFailedRelease]

theorem releaseOwned_balanced {kind : UserKind} (hkind : kind ≠ .admin) (h : Settled locals moves) :
    Async.wp recorder record (releaseOwned kind) (fun _ _ => Balanced) locals moves := by
  unfold releaseOwned
  rw [wp_bind, wp_getLocal, either_ok, wp_ite]
  unfold Settled at h
  cases howned : locals.workerOwnsRateLimit with
  | true =>
      rw [howned] at h
      intro _
      rw [h.2.2.1, h.2.1, if_pos (.inl rfl)]
  | false =>
      rw [howned] at h
      exact releaseTurn_balanced hkind h

theorem yieldEvent_balanced (event : ChatEvent) (h : moves.any isReserved = false) :
    Async.wp recorder record (yieldEvent event) (fun _ _ => Balanced) locals moves := by
  have hnone (answer : Except Fault Unit) :
      List.any (moves ++ [.did (.yieldEvent event) answer]) isReserved = false := by
    rw [List.any_append, h]
    rfl
  exact (Async.wp_await _ _).mpr ⟨trivial,
    fun value hreserved => absurd ((hnone (.ok value)).symm.trans hreserved) Bool.false_ne_true,
    fun fault hreserved => absurd ((hnone (.error fault)).symm.trans hreserved) Bool.false_ne_true⟩

/-- **The handler.** -/
theorem runTurn_balanced {kind : UserKind} (hkind : kind ≠ .admin) (request : RunTurnRequest) :
    Async.wp recorder record (ChatRPC.runTurn kind request) (fun _ _ => Balanced) {} [] := by
  unfold ChatRPC.runTurn
  rw [wp_ite]
  split
  · exact yieldEvent_balanced _ rfl
  rw [wp_bind]
  refine (Async.wp_await _ _).mpr ⟨trivial, fun reply => ?_, fun _ => nofun⟩
  rw [either_ok]
  cases reply with
  | error limited => exact yieldEvent_balanced _ rfl
  | ok =>
      have hstart : Holding false {} [.did (.reserveTurn kind) (.ok (.ok ()))] :=
        ⟨rfl, rfl, rfl, rfl⟩
      have hcleanup (given : RequestLocals) (before : List RequestMove)
          (h : Settled given before) : Async.wp recorder record (releaseOwned kind)
            (either (fun _ _ => Balanced) fun _ _ => Balanced) given before :=
        wp_mono monotone_record (releaseOwned_balanced hkind h) fun outcome _ _ h => by
          cases outcome <;> exact h
      rw [wp_tryFinally]
      exact (admitted_settled request).call monotone_record hstart (fun _ => hcleanup) fun _ => hcleanup

end

/-! ### The slot -/

/-- What `reserve_turn` adds to the counter of an admitted user. -/
theorem reserveTurn_slots {kind : UserKind} {settings : RuntimeSettings} {reading : ℚ} {state : State}
    (h : state.admits kind settings reading = true) :
    valueOf (reserveTurn kind settings reading state.clock state.keys).2.active =
      valueOf state.keys.active + slots kind := by
  by_cases hkind : kind = .admin
  · simp [reserveTurn, slots, hkind]
  · rw [reserve_admitted hkind h, valueOf_beginActive, slots, if_neg hkind]
    rfl

/-- What the DECR of `release_turn` takes from it. -/
theorem releaseDecr_slots (kind : UserKind) (keys : Keys) :
    valueOf (releaseDecr kind keys).2.active = valueOf keys.active - slots kind := by
  by_cases hkind : kind = .admin
  · simp [releaseDecr, slots, hkind]
  · have hdecr := valueOf_incrBy (-1) keys.active
    simp only [releaseDecr, slots, hkind, if_false, decr]
    omega

theorem sum_released {userId : Nat} (jobs : List JobRun)
    (hown : ∀ job ∈ jobs, ∀ turn, job.delivery.turn = some turn → turn.userId = userId) :
    (jobs.map (JobRun.released · userId)).sum =
      (jobs.filter fun job => job.kind ≠ .admin && job.owns).length := by
  induction jobs with
  | nil => rfl
  | cons job rest ih =>
      rw [List.map_cons, List.sum_cons, ih fun job hjob => hown job (List.mem_cons_of_mem _ hjob),
        released_eq job (hown job List.mem_cons_self)]
      by_cases hkind : job.kind = .admin
      · simp [slots, hkind]
      · cases howns : job.owns <;> simp [slots, hkind, howns, Nat.add_comm]

/-- **A slot.** It is given back once if and only if it has one owner. -/
theorem slots_conserved (run : RequestRun) (hreserved : run.reserved = true) :
    run.Conserved ↔ run.settled = true := by
  have hhandler (hkind : run.kind ≠ .admin) :
      run.moves.countP isRelease = if run.handlerOwns = true then 1 else 0 := by
    have hbalanced : Balanced run.moves := run.ran.promised (runTurn_balanced hkind run.request)
    rw [hbalanced hreserved]
    unfold RequestRun.handlerOwns RequestRun.handsOver RequestRun.releaseFails
    cases run.moves.any isHandover <;> cases run.moves.any isFailedRelease <;> rfl
  have hjobs : (run.jobs.map (JobRun.released · run.userId)).sum = run.owners.length :=
    sum_released run.jobs run.own
  unfold RequestRun.Conserved RequestRun.released RequestRun.settled
  rw [hjobs]
  by_cases hkind : run.kind = .admin
  · simp [slots, hkind]
  · rw [hhandler hkind]
    cases run.handlerOwns <;> simp [slots, hkind]

/-! ### Two requests -/

def aPreparedTurn : PreparedRunTurn := ⟨1, 1, 1, .guest, false, false, false, ""⟩

def aStartingRow : TurnRow := .starting 1 ⟨1, 1, 1, .guest⟩ 0

def aConfig : ExecConfig := ⟨1, 1, none, 0, 180, 1, ⟨.error "busy", []⟩⟩

/-- The job is in the queue, and the client is gone at the first event. -/
def enqueuedMoves : List RequestMove :=
  [.did (.reserveTurn .webUser) (.ok (.ok ())),
    .did .prepareRunTurn (.ok aPreparedTurn),
    .did (.control (.getActiveForChat 1)) (.ok none),
    .did (.control (.createTurn ⟨1, 1, 1, .guest⟩)) (.ok (some aStartingRow)),
    .did (.control (.enqueue 1)) (.ok ()),
    .did (.yieldEvent ⟨.turnStarted 1, ""⟩) (.error .cancelled)]

theorem enqueuedMoves_run :
    Program.Runs (ChatRPC.runTurn .webUser ⟨"Hi", [], []⟩ {}) enqueuedMoves
      (.error (.fault .cancelled), ⟨true⟩) :=
  .call _ (.call _ (.call _ (.call _ (.call _ (.call _ (.ret _))))))

/-- A request whose job is delivered once. -/
def deliveredOnce (kind : UserKind) (delivery : Delivery aConfig)
    (hown : ∀ turn, delivery.turn = some turn → turn.userId = 1) : RequestRun where
  userId := 1
  kind := .webUser
  request := ⟨"Hi", [], []⟩
  moves := enqueuedMoves
  result := (.error (.fault .cancelled), ⟨true⟩)
  ran := enqueuedMoves_run
  jobs := [⟨aConfig, kind, delivery⟩]
  queued := fun job hjob => by
    obtain rfl := List.mem_singleton.mp hjob
    exact ⟨.ok (), by simp [enqueuedMoves, aConfig]⟩
  own := fun job hjob => by
    obtain rfl := List.mem_singleton.mp hjob
    exact hown

/-- Codex refuses the turn, and all else goes well. -/
def refused : (op : Op) → Except Fault op.Val
  | .setActiveNx .. | .delActiveIfEq .. | .setLeaseNx .. | .releaseLease .. | .finalizeOnce .. =>
      .ok true
  | .ownershipLost => .ok false
  | .peekSteer _ => .ok 0
  | .xadd .. => .ok "1-1"
  | .external _ | .refresh | .emitEvent .. | .expireStream _ | .updateLastEvent ..
  | .startHeartbeat .. | .stopHeartbeat | .addActiveLease .. | .discardActiveLease .. => .ok ()
  | _ => .error (.other "")

/-- The execution in which each operation is answered as `answer` says. -/
def loadedRun (answer : (op : Op) → Except Fault op.Val) (cfg : ExecConfig) (turn : TurnRow) :
    LoadedRun cfg turn :=
  let locked := (executeLocked cfg turn {}).exec answer
  let cleanup := (executionFinally cfg locked.2.2).exec answer
  ⟨locked.1, locked.2.1, locked.2.2, cleanup.1, cleanup.2.1, cleanup.2.2,
    Program.runs_exec answer _, Program.runs_exec answer _⟩

def executedOnce (kind : UserKind) (answer : (op : Op) → Except Fault op.Val) : RequestRun :=
  deliveredOnce kind (.executed aStartingRow rfl (loadedRun answer aConfig aStartingRow))
    fun _ hturn => Option.some.inj hturn ▸ rfl

/-- A turn that is executed gives its slot back. -/
theorem slots_conserved_executed :
    (executedOnce .webUser refused).reserved = true ∧ (executedOnce .webUser refused).Conserved :=
  ⟨by decide, (slots_conserved (executedOnce .webUser refused) (by decide)).mpr (by decide +kernel)⟩

/-- The turn is cancelled before its job is delivered. -/
def cancelledOnce : RequestRun :=
  deliveredOnce .webUser (.rowTerminal { aStartingRow with status := .cancelled } rfl)
    fun _ hturn => Option.some.inj hturn ▸ rfl

def finalizeFails (op : Op) : Except Fault op.Val :=
  match op with
  | .finalizeOnce .. => .error (.other "")
  | op => refused op

/-- Nobody gives the slot back: the row is terminal, the finalisation raises, or the user has become
an admin. -/
theorem slots_leak :
    (cancelledOnce.reserved = true ∧ cancelledOnce.jobs ≠ [] ∧ ¬cancelledOnce.Conserved) ∧
    ((executedOnce .webUser finalizeFails).reserved = true ∧
      ¬(executedOnce .webUser finalizeFails).Conserved) ∧
    ((executedOnce .admin refused).reserved = true ∧ ¬(executedOnce .admin refused).Conserved) := by
  refine ⟨⟨by decide, List.cons_ne_nil _ _, ?_⟩, ⟨by decide, ?_⟩, by decide, ?_⟩
  · decide +kernel
  · decide +kernel
  · decide +kernel

end Slots
end CodexServer
