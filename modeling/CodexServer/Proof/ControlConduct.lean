import CodexServer.Cluster

/-!
# Handlers and recovery keep to the rules

They finalise a turn only on the grounds they have, which `Grounds` lists for each of them. What the
listener leaves behind is said by `ControlEnded`.
-/

open Async

namespace CodexServer

/-- On what record a turn may be finalised. -/
def Grounds (kind : ControlKind) (history : ControlHistory) (turnId : Nat) : Prop :=
  match kind with
  | .sweep | .inline _ => ∃ row ∈ history.stale, row.id = turnId
  | .listener .. => ∃ row, history.examined = some row ∧ row.id = turnId
  | .handler _ => (∃ row ∈ history.stale, row.id = turnId) ∨
      (∃ row, history.examined = some row ∧ row.id = turnId ∧ (history.dead ∨ history.rejected)) ∨
      history.created = some turnId
  | .shutdown _ => False

def ControlAllowed (kind : ControlKind) (history : ControlHistory) : Op → Prop
  | .getTurn turnId =>
      kind = .inline turnId ∨ ∃ acquisition, kind = .listener turnId acquisition
  | .finalizeOnce turnId status errorCode _ => status = .failed ∧ Grounds kind history turnId ∧
      (errorCode = some "orphan_heartbeat" → ∃ row ∈ history.stale, row.id = turnId)
  | .createTurn _ => history.created = none
  | .enqueue turnId => history.created = some turnId
  | .leaseExists turnId => ∃ row, history.examined = some row ∧ row.id = turnId
  | .releaseLease turnId holder => kind = .shutdown holder ∧ turnId ∈ history.snapshot
  | .activeLeases holder | .discardActiveLease _ holder => kind = .shutdown holder
  | .findStaleActive threshold => threshold = Recovery.staleThreshold
  | .clock => history.weighed = false ∧ ∀ turnId acquisition, kind ≠ .listener turnId acquisition
  | .getActiveForChat _ | .delActiveIfEq .. | .external _ | .bumpSteer _ | .noteSteer .. => True
  | .getUser _ | .markRunning .. | .updateLastEvent .. | .heartbeat _ | .persistPartial ..
  | .persistFinal .. | .refresh | .emitEvent .. | .setActiveNx .. | .getActive _
  | .setActiveIfEq .. | .setLeaseNx .. | .refreshLease .. | .addActiveLease .. | .peekSteer _
  | .consumeSteer .. | .xadd .. | .expireStream _ | .nextNote _ | .startHeartbeat ..
  | .stopHeartbeat | .ownershipLost => False

def controlMonitor (kind : ControlKind) : Monitor Op Op.Val Fault ControlHistory where
  allowed := ControlAllowed kind
  next history := history.next

/-- The listener has finalised the turn of its message, unless it had nothing to finalise. -/
def ControlEnded (kind : ControlKind) (history : ControlHistory) : Prop :=
  match kind with
  | .listener .. => history.faulted ∨ history.found = some none ∨
      ∃ row, history.examined = some row ∧ (row.status.isTerminal ∨ row.id ∈ history.finalized)
  | _ => True

abbrev ControlTriple {α : Type} (kind : ControlKind) (pre : ControlHistory → Prop)
    (code : ControlCode α) (post : α → ControlHistory → Prop)
    (raises : ControlHistory → Prop) : Prop :=
  Triple (controlMonitor kind) (fun out _ _ => nomatch out) (fun _ => pre) code
    (fun value _ => post value) fun _ _ => raises

variable {kind : ControlKind} {history : ControlHistory} {turnId : Nat} {locals : Unit}

theorem monotone_silent : Program.Monotone
    (fun (out : Empty) (_ : ControlHistory → Prop) (_ : ControlHistory) => nomatch out) :=
  fun out => nomatch out

/-- The lock of a turn may be given up at any time. -/
theorem releaseActive_control (chatId : Nat) {pre raises : ControlHistory → Prop}
    (hfault : ∀ history failure, pre history →
      pre (history.fault (.delActiveIfEq chatId turnId) failure) ∧
        raises (history.fault (.delActiveIfEq chatId turnId) failure)) :
    ControlTriple kind pre (Locks.releaseActive chatId turnId) (fun _ => pre) raises := by
  intro _ history h
  unfold Locks.releaseActive
  rw [wp_orOnRedisError]
  refine (wp_await _).mpr ⟨trivial, fun _ => h, fun failure => ?_⟩
  have hafter := hfault history failure h
  cases failure with
  | redisError text => exact hafter.1
  | cancelled | timeout | rpcError | staleTurnStream | staleSidecarTurn | queueError | other =>
      exact hafter.2

/-! ### Recovery -/

/-- A stale row is finalised; what was known stays known. -/
theorem finalizeOrphan_spec (turn : TurnRow) (known : ControlHistory → Prop)
    (hgrounds : ∀ history, known history → Grounds kind history turn.id)
    (hstale : ∀ history, known history → ∃ row ∈ history.stale, row.id = turn.id)
    (hvalue : ∀ history, known history →
      known { history with finalized := turn.id :: history.finalized })
    (hfault : ∀ history op failure, known history → known (history.fault op failure)) :
    ControlTriple kind known (Recovery.finalizeOrphan turn) (fun _ => known) fun _ => True := by
  intro _ history h
  have hrelease : ControlTriple kind known (Locks.releaseActive turn.chatId turn.id)
      (fun _ => known) fun _ => True :=
    releaseActive_control turn.chatId fun history failure h => ⟨hfault history _ failure h, trivial⟩
  unfold Recovery.finalizeOrphan
  refine (wp_await_bind _ _).mpr ⟨⟨rfl, hgrounds history h, fun _ => hstale history h⟩, fun _ => ?_,
    fun _ => trivial⟩
  rw [wp_bind]
  exact hrelease.call monotone_silent (hvalue history h) (fun _ _ _ h => h) fun _ _ _ _ => trivial

theorem finalizeOrphans_spec (turns : List TurnRow) :
    ControlTriple .sweep (fun history => ∀ turn ∈ turns, turn ∈ history.stale)
      (Recovery.finalizeOrphans turns) (fun _ _ => True) fun _ => True := by
  induction turns with
  | nil => exact fun _ _ _ => trivial
  | cons turn rest ih =>
      intro locals history h
      have hfirst : ControlTriple .sweep (fun history => ∀ other ∈ turn :: rest,
          other ∈ history.stale) (Recovery.finalizeOrphan turn) (fun _ history =>
          ∀ other ∈ turn :: rest, other ∈ history.stale) fun _ => True :=
        finalizeOrphan_spec turn _ (fun _ hknown => ⟨turn, hknown turn List.mem_cons_self, rfl⟩)
          (fun _ hknown => ⟨turn, hknown turn List.mem_cons_self, rfl⟩) (fun _ h => h)
          fun _ _ _ h => h
      unfold Recovery.finalizeOrphans
      rw [wp_bind]
      refine hfirst.call monotone_silent h ?_ fun _ _ _ _ => trivial
      exact fun _ locals history hknown =>
        ih locals history fun turn hturn => hknown turn (List.mem_cons_of_mem _ hturn)

theorem reconcileStaleTurns_spec :
    ControlTriple .sweep (fun _ => True) Recovery.reconcileStaleTurns (fun _ _ => True)
      fun _ => True := by
  intro locals history _
  unfold Recovery.reconcileStaleTurns
  refine (wp_await_bind _ _).mpr ⟨rfl, fun turns => ?_, fun _ => trivial⟩
  rw [wp_bind]
  exact (finalizeOrphans_spec turns).call monotone_silent (fun _ hturn => hturn)
    (fun _ _ _ _ => trivial) fun _ _ _ _ => trivial

/-- What a path of recovery and a handler start with. -/
def Unexamined (history : ControlHistory) : Prop :=
  history.created = none ∧ history.weighed = false

/-- What a caller of `reconcile_if_stale` knows: the row it looks at. -/
def Examining (active : TurnRow) (history : ControlHistory) : Prop :=
  history.created = none ∧ history.examined = some active

/-- And it has not compared the row with the clock. -/
def Weighing (active : TurnRow) (history : ControlHistory) : Prop :=
  Examining active history ∧ history.weighed = false

theorem reconcileIfStale_spec (active : TurnRow)
    (hkind : ∀ turnId acquisition, kind ≠ .listener turnId acquisition)
    (hgrounds : ∀ history, active ∈ history.stale → Grounds kind history active.id) :
    ControlTriple kind (Weighing active) (Recovery.reconcileIfStale active)
      (fun _ => Examining active) fun _ => True := by
  rintro locals history ⟨h, hweighed⟩
  unfold Recovery.reconcileIfStale
  refine (wp_await_bind _ _).mpr ⟨⟨hweighed, hkind⟩, fun now => ?_, fun _ => trivial⟩
  rw [wp_ite]
  split
  · exact h
  · rename_i hold
    have hstale : active ∈ (history.done .clock now).stale := by
      simp [ControlHistory.done, h.2, Nat.le_of_not_lt hold]
    have horphan : ControlTriple kind
        (fun history => Examining active history ∧ active ∈ history.stale)
        (Recovery.finalizeOrphan active)
        (fun _ history => Examining active history ∧ active ∈ history.stale) fun _ => True :=
      finalizeOrphan_spec active _ (fun _ hknown => hgrounds _ hknown.2)
        (fun _ hknown => ⟨active, hknown.2, rfl⟩) (fun _ h => h) fun _ _ _ h => h
    rw [wp_bind]
    exact horphan.call monotone_silent ⟨h, hstale⟩ (fun _ _ _ h => h.1) fun _ _ _ _ => trivial

theorem reconcileRead_spec (turnId : Nat) :
    ControlTriple (.inline turnId) Unexamined (Recovery.reconcileRead turnId) (fun _ _ => True)
      fun _ => True := by
  rintro locals history ⟨hcreated, hweighed⟩
  have hstale (turn : TurnRow) : ControlTriple (.inline turnId) (Weighing turn)
      (Recovery.reconcileIfStale turn) (fun _ => Examining turn) fun _ => True :=
    reconcileIfStale_spec turn nofun fun _ hstale => ⟨turn, hstale, rfl⟩
  unfold Recovery.reconcileRead
  refine (wp_await_bind _ _).mpr ⟨Or.inl rfl, fun found => ?_, fun _ => trivial⟩
  cases found with
  | none => trivial
  | some turn =>
      simp only [wp_ite]
      split
      · exact (hstale turn).call monotone_silent ⟨⟨hcreated, rfl⟩, hweighed⟩ (fun _ _ _ _ => trivial)
          fun _ _ _ _ => trivial
      · trivial

/-- The listener on one message. -/
theorem leaseExpiredMessage_spec (turnId acquisition : Nat) :
    ControlTriple (.listener turnId acquisition) (fun _ => True)
      (Recovery.leaseExpiredMessage turnId)
      (fun _ => ControlEnded (.listener turnId acquisition))
      (ControlEnded (.listener turnId acquisition)) := by
  intro locals history _
  have hfault (history : ControlHistory) (op : Op) (failure : Fault) (hop : op.isExternal = false) :
      ControlEnded (.listener turnId acquisition) (history.fault op failure) :=
    Or.inl (by simp [ControlHistory.fault, hop])
  unfold Recovery.leaseExpiredMessage Recovery.finalizeLeaseExpired
  rw [wp_exceptException]
  refine (wp_await_bind _ _).mpr ⟨Or.inr ⟨acquisition, rfl⟩, fun found => ?_, fun failure => ?_⟩
  · cases found with
    | none => exact Or.inr (Or.inl rfl)
    | some turn =>
        simp only [wp_ite]
        split
        · refine (wp_await_bind _ _).mpr
            ⟨⟨rfl, ⟨turn, rfl, rfl⟩, by simp⟩, fun won => ?_, fun failure => ?_⟩
          · unfold Locks.releaseActive
            rw [wp_bind, wp_orOnRedisError]
            refine (wp_await _).mpr ⟨trivial, fun _ => ?_, fun failure => ?_⟩
            · exact Or.inr (Or.inr ⟨turn, rfl, Or.inr List.mem_cons_self⟩)
            · cases failure <;> exact hfault _ _ _ rfl
          · cases failure <;> exact hfault _ _ _ rfl
        · rename_i hinactive
          refine Or.inr (Or.inr ⟨turn, rfl, Or.inl ?_⟩)
          simpa using hinactive
  · cases failure <;> exact hfault _ _ _ rfl

/-! ### Handlers -/

namespace Handler

variable {prepared : PreparedRunTurn} {active : TurnRow}

/-- The code of a handler that looks at `active`; nothing is said of a run that raises. -/
abbrev HandlerTriple {α : Type} (prepared : PreparedRunTurn) (pre : ControlHistory → Prop)
    (code : ControlCode α) (post : α → ControlHistory → Prop) : Prop :=
  ControlTriple (.handler prepared) pre code post fun _ => True

/-- Codex runs another turn than the row that is looked at. -/
def Rejected (active : TurnRow) (history : ControlHistory) : Prop :=
  Examining active history ∧ history.rejected = true

theorem Rejected.fault {history : ControlHistory} {op : Op} {failure : Fault}
    (h : Rejected active history) : Rejected active (history.fault op failure) :=
  ⟨h.1, Bool.or_eq_true_iff.mpr (Or.inl h.2)⟩

theorem interruptStale_spec :
    HandlerTriple prepared (Rejected active) (interruptStale active) fun _ => Rejected active := by
  intro locals history h
  unfold interruptStale
  rw [wp_ite]
  split
  · rw [wp_tryCatch]
    refine (wp_await _).mpr ⟨trivial, fun _ => h, fun failure => ?_⟩
    cases failure with
    | staleSidecarTurn text | timeout text | rpcError text => exact h.fault
    | cancelled | redisError text | staleTurnStream text | queueError text | other text =>
        trivial
  · exact h

theorem quarantineThread_control (threadId : String) :
    HandlerTriple prepared (Rejected active) (quarantineThread threadId)
      fun _ => Rejected active := by
  intro locals history h
  unfold quarantineThread
  rw [wp_ite]
  split
  · exact h
  · rw [wp_orOnRedisError]
    refine (wp_await _).mpr ⟨trivial, fun _ => h, fun failure => ?_⟩
    cases failure with
    | redisError text => exact h.fault
    | cancelled | timeout | rpcError | staleTurnStream | staleSidecarTurn | queueError | other =>
        trivial

theorem handleStaleTurn_spec :
    HandlerTriple prepared (Rejected active) (handleStaleTurn prepared active)
      fun _ => Examining active := by
  intro locals history h
  unfold handleStaleTurn
  rw [wp_bind]
  refine interruptStale_spec.call monotone_silent h ?_ fun _ _ _ _ => trivial
  intro _ locals history h
  rw [either_ok, wp_bind]
  refine (quarantineThread_control _).call monotone_silent h ?_ fun _ _ _ _ => trivial
  intro _ locals history h
  have hgrounds : Grounds (.handler prepared) history active.id :=
    Or.inr (Or.inl ⟨active, h.1.2, rfl, Or.inr h.2⟩)
  have hother : CodexErrorCode.staleActiveTurn ≠ "orphan_heartbeat" := by decide
  exact (wp_await_bind _ _).mpr ⟨⟨rfl, hgrounds, fun hcode => absurd (Option.some.inj hcode) hother⟩,
    fun _ => h.1, fun _ => trivial⟩

/-- How an RPC to Codex ends: the row stays what it is, and a refusal is on record. -/
def rpcPost (active : TurnRow) {α : Type} : Except Exn α → Unit → ControlHistory → Prop
  | .error (.fault (.staleSidecarTurn _)) => fun _ => Rejected active
  | _ => fun _ => Examining active

theorem rpcPost_fault {α : Type} {history : ControlHistory} {op : Op} {failure : Fault}
    (h : Examining active history) (hop : op.isControlRpc = true) :
    rpcPost active (.error (.fault failure) : Except Exn α) locals (history.fault op failure) := by
  cases failure with
  | staleSidecarTurn text =>
      exact ⟨h, by simp [ControlHistory.fault, hop, Fault.isStaleSidecarTurn]⟩
  | cancelled | redisError text | timeout text | rpcError text | staleTurnStream text
  | queueError text | other text => exact h

theorem rpcPost_examining {α : Type} {history : ControlHistory} {error : Exn}
    (hstale : ∀ text, error ≠ .fault (.staleSidecarTurn text))
    (h : rpcPost active (.error error : Except Exn α) locals history) :
    Examining active history := by
  cases error with
  | codexTurnTerminal status raw => exact h
  | fault fault =>
      cases fault with
      | staleSidecarTurn text => exact absurd rfl (hstale text)
      | cancelled | redisError text | timeout text | rpcError text | staleTurnStream text
      | queueError text | other text => exact h

variable (prepared) in
theorem sendSteer_intro {history : ControlHistory} (codexTurnId : String)
    (h : Examining active history) :
    Async.wp (controlMonitor (.handler prepared)) (fun out _ _ => nomatch out)
      (sendSteer prepared codexTurnId) (rpcPost active) locals history := by
  unfold sendSteer
  refine (wp_await_bind _ _).mpr ⟨trivial, fun _ => ?_, fun _ => rpcPost_fault h rfl⟩
  rw [wp_ite]
  split
  · rw [wp_bind, wp_orOnRedisError]
    refine (wp_await _).mpr ⟨trivial, fun _ => h, fun failure => ?_⟩
    have hfault : rpcPost active (.error (.fault failure) : Except Exn Bool) locals
        (history.fault (.noteSteer prepared.chatId codexTurnId) failure) := rpcPost_fault h rfl
    cases failure with
    | redisError text => exact h
    | cancelled | timeout | rpcError | staleTurnStream | staleSidecarTurn | queueError | other =>
        exact hfault
  · exact h

variable (prepared) in
theorem sendInterrupt_intro {history : ControlHistory} (h : Examining active history) :
    Async.wp (controlMonitor (.handler prepared)) (fun out _ _ => nomatch out)
      (sendInterrupt prepared active) (rpcPost active) locals history := by
  unfold sendInterrupt
  rw [wp_ite]
  split
  · exact (wp_await_bind _ _).mpr ⟨trivial, fun _ => h, fun _ => rpcPost_fault h rfl⟩
  · exact h

theorem trySteerActiveTurn_spec (codexTurnId : String) :
    HandlerTriple prepared (Examining active) (trySteerActiveTurn prepared active codexTurnId)
      fun _ => Examining active := by
  intro locals history h
  unfold trySteerActiveTurn
  rw [wp_bind, wp_attempt]
  refine wp_mono monotone_silent (sendSteer_intro prepared codexTurnId h) ?_
  intro outcome locals history houtcome
  rw [either_ok]
  split
  · rw [wp_bind]
    exact handleStaleTurn_spec.call monotone_silent houtcome (fun _ _ _ h => h)
      fun _ _ _ _ => trivial
  · rename_i error hstale
    have h := rpcPost_examining (fun text heq => hstale text heq) houtcome
    rw [wp_ite]
    split
    · exact h
    · trivial
  · exact houtcome
  · refine (wp_await_bind _ _).mpr ⟨trivial, fun _ => ?_, fun _ => trivial⟩
    rw [wp_bind, wp_orOnRedisError]
    refine (wp_await _).mpr ⟨trivial, fun _ => houtcome, fun failure => ?_⟩
    cases failure with
    | redisError text => exact houtcome
    | cancelled | timeout | rpcError | staleTurnStream | staleSidecarTurn | queueError | other =>
        trivial

theorem tryInterruptActiveTurn_spec :
    HandlerTriple prepared (Examining active) (tryInterruptActiveTurn prepared active)
      fun _ => Examining active := by
  intro locals history h
  unfold tryInterruptActiveTurn
  rw [wp_bind, wp_attempt]
  refine wp_mono monotone_silent (sendInterrupt_intro prepared h) ?_
  intro outcome locals history houtcome
  rw [either_ok]
  split
  · rw [wp_bind]
    exact handleStaleTurn_spec.call monotone_silent houtcome (fun _ _ _ h => h)
      fun _ _ _ _ => trivial
  · rename_i error hstale
    have h := rpcPost_examining (fun text heq => hstale text heq) houtcome
    rw [wp_ite]
    split
    · exact h
    · trivial
  · exact houtcome

theorem handleRunningTurn_spec (codexTurnId : String) :
    HandlerTriple prepared (Examining active) (handleRunningTurn prepared active codexTurnId)
      fun _ => Examining active := by
  intro locals history h
  unfold handleRunningTurn
  rw [wp_ite]
  split
  · exact h
  · rw [wp_bind]
    refine (trySteerActiveTurn_spec codexTurnId).call monotone_silent h ?_ fun _ _ _ _ => trivial
    intro event locals history h
    cases event with
    | some event => exact h
    | none =>
        rw [either_ok, wp_bind]
        refine tryInterruptActiveTurn_spec.call monotone_silent h ?_ fun _ _ _ _ => trivial
        rintro ⟨interrupted, event⟩ locals history h
        cases event with
        | some event => exact h
        | none => cases interrupted <;> exact h

theorem finalizeZombie_spec :
    HandlerTriple prepared (fun history => Examining active history ∧ history.dead = true)
      (finalizeZombie active) fun _ => Examining active := by
  rintro locals history ⟨h, hdead⟩
  have hrelease : HandlerTriple prepared (Examining active)
      (Locks.releaseActive active.chatId active.id) fun _ => Examining active :=
    releaseActive_control active.chatId fun _ _ h => ⟨h, trivial⟩
  have hgrounds : Grounds (.handler prepared) history active.id :=
    Or.inr (Or.inl ⟨active, h.2, rfl, Or.inl hdead⟩)
  unfold finalizeZombie
  refine (wp_await_bind _ _).mpr ⟨⟨rfl, hgrounds, by simp⟩, fun _ => ?_, fun _ => trivial⟩
  rw [wp_bind]
  exact hrelease.call monotone_silent h (fun _ _ _ h => h) fun _ _ _ _ => trivial

/-- The zombie check: without a lease the turn is finalised. -/
theorem handleMarkedTurn_spec (codexTurnId : String) :
    HandlerTriple prepared (Examining active) (handleMarkedTurn prepared active codexTurnId)
      fun _ => Examining active := by
  intro locals history h
  have hdead (history : ControlHistory) (h : Examining active history ∧ history.dead = true) :
      Async.wp (controlMonitor (.handler prepared)) (fun out _ _ => nomatch out)
        (do
          finalizeZombie active
          pure none : ControlCode (Option ChatEvent))
        (either (fun _ _ => Examining active) fun _ _ _ => True) locals history := by
    rw [wp_bind]
    exact finalizeZombie_spec.call monotone_silent h (fun _ _ _ h => h) fun _ _ _ _ => trivial
  unfold handleMarkedTurn Lease.exists_
  rw [wp_bind, wp_orOnRedisError]
  refine (wp_await _).mpr ⟨⟨active, h.2, rfl⟩, fun alive => ?_, fun failure => ?_⟩
  · cases alive with
    | true => exact handleRunningTurn_spec codexTurnId _ _ h
    | false => exact hdead _ ⟨h, Bool.or_true _⟩
  · cases failure with
    | redisError text => exact hdead _ ⟨h, Bool.or_true _⟩
    | cancelled | timeout | rpcError | staleTurnStream | staleSidecarTurn | queueError | other =>
        trivial

theorem handleActiveTurn_spec :
    HandlerTriple prepared Unexamined (handleActiveTurn prepared)
      fun _ history => history.created = none := by
  rintro locals history ⟨hcreated, hweighed⟩
  have hstale (active : TurnRow) : HandlerTriple prepared (Weighing active)
      (Recovery.reconcileIfStale active) fun _ => Examining active :=
    reconcileIfStale_spec active nofun fun _ hstale => Or.inl ⟨active, hstale, rfl⟩
  unfold handleActiveTurn
  refine (wp_await_bind _ _).mpr ⟨trivial, fun found => ?_, fun _ => trivial⟩
  cases found with
  | none => exact hcreated
  | some active =>
      rw [wp_bind]
      refine (hstale active).call monotone_silent ⟨⟨hcreated, rfl⟩, hweighed⟩ ?_
        fun _ _ _ _ => trivial
      intro stale locals history h
      rw [either_ok, wp_ite]
      split
      · exact h.1
      · cases active.codexTurnId with
        | none => exact h.1
        | some codexTurnId =>
            exact (handleMarkedTurn_spec codexTurnId).call monotone_silent h
              (fun _ _ _ h => h.1) fun _ _ _ _ => trivial

/-- The new row may be finalised by the handler that could not enqueue it. -/
theorem enqueueTurn_spec (turn : TurnRow) :
    HandlerTriple prepared (fun history => history.created = some turn.id) (enqueueTurn turn)
      fun _ _ => True := by
  intro locals history h
  unfold enqueueTurn
  rw [wp_bind, wp_attempt]
  refine (wp_await _).mpr ⟨h, fun _ => trivial, fun failure => ?_⟩
  have hgrounds (history : ControlHistory) (h : history.created = some turn.id) :
      Grounds (.handler prepared) history turn.id := Or.inr (Or.inr h)
  cases failure with
  | queueError text | redisError text | timeout text =>
      exact (wp_await_bind _ _).mpr ⟨⟨rfl, hgrounds _ h, by simp⟩, fun _ => trivial,
        fun _ => trivial⟩
  | cancelled | rpcError | staleTurnStream | staleSidecarTurn | other => trivial

theorem runTurn_spec :
    HandlerTriple prepared Unexamined (runTurn prepared) fun _ _ => True := by
  intro locals history h
  unfold runTurn
  rw [wp_bind]
  refine handleActiveTurn_spec.call monotone_silent h ?_ fun _ _ _ _ => trivial
  intro event locals history h
  cases event with
  | some event => trivial
  | none =>
      rw [either_ok, wp_bind, createWebTurn]
      refine (wp_await_bind _ _).mpr ⟨h, fun created => ?_, fun _ => trivial⟩
      cases created with
      | none => trivial
      | some turn => exact enqueueTurn_spec turn locals _ rfl

end Handler

/-! ### The shutdown of a worker -/

/-- Every release is of a lease that was in the registry at the beginning. -/
theorem releaseRegistered_spec (holder turnId : Nat) (turnIds : List Nat) :
    ControlTriple (.shutdown holder)
      (fun history => history.snapshot = turnIds ∧ turnId ∈ turnIds)
      (Lease.releaseRegistered turnId holder) (fun _ history => history.snapshot = turnIds)
      fun _ => True := by
  rintro locals history ⟨h, hturn⟩
  unfold Lease.releaseRegistered
  rw [wp_orOnRedisError]
  refine (wp_await_bind _ _).mpr ⟨⟨rfl, h ▸ hturn⟩, fun released => ?_, fun failure => ?_⟩
  · refine (wp_await_bind _ _).mpr ⟨rfl, fun _ => h, fun failure => ?_⟩
    cases failure with
    | redisError text => exact h
    | cancelled | timeout | rpcError | staleTurnStream | staleSidecarTurn | queueError | other =>
        trivial
  · cases failure with
    | redisError text => exact h
    | cancelled | timeout | rpcError | staleTurnStream | staleSidecarTurn | queueError | other =>
        trivial

theorem releaseLocal_spec (holder : Nat) (registered turnIds : List Nat)
    (hregistered : turnIds ⊆ registered) :
    ControlTriple (.shutdown holder) (fun history => history.snapshot = registered)
      (Lease.releaseLocal holder turnIds) (fun _ _ => True) fun _ => True := by
  induction turnIds with
  | nil => exact fun _ _ _ => trivial
  | cons turnId rest ih =>
      intro locals history h
      unfold Lease.releaseLocal
      rw [wp_bind]
      refine (releaseRegistered_spec holder turnId registered).call monotone_silent
        ⟨h, hregistered List.mem_cons_self⟩ ?_ fun _ _ _ _ => trivial
      intro released locals history h
      rw [either_ok, wp_bind]
      exact (ih fun other hother => hregistered (List.mem_cons_of_mem _ hother)).call
        monotone_silent h (fun _ _ _ _ => trivial) fun _ _ _ _ => trivial

theorem releaseAllLocal_spec (holder : Nat) :
    ControlTriple (.shutdown holder) (fun _ => True) (Lease.releaseAllLocal holder)
      (fun _ _ => True) fun _ => True := by
  intro locals history _
  unfold Lease.releaseAllLocal
  refine (wp_await_bind _ _).mpr ⟨rfl, fun turnIds => ?_, fun _ => trivial⟩
  exact releaseLocal_spec holder turnIds turnIds (List.Subset.refl _) _ _ rfl

/-! ### All of them -/

theorem thread_wp {α : Type} {code : ControlCode α} {pre post raises : ControlHistory → Prop}
    (h : ControlTriple kind pre code (fun _ => post) raises) (hpre : pre {})
    (hpost : ∀ history, post history → ControlEnded kind history)
    (hraises : ∀ history, raises history → ControlEnded kind history) :
    code.thread.wp (controlMonitor kind) (fun out _ _ => nomatch out)
      (fun _ history => ControlEnded kind history) {} := by
  unfold ControlCode.thread
  rw [Program.wp_bind]
  have hcalled : Async.wp (controlMonitor kind) (fun out _ _ => nomatch out) code
      (fun _ _ history => ControlEnded kind history) () {} :=
    h.call monotone_silent hpre (fun _ _ => hpost) fun _ _ => hraises
  exact hcalled

/-- **Control code keeps to the rules**, whatever it is answered. -/
theorem control_conforms (kind : ControlKind) :
    kind.code.wp (controlMonitor kind) (fun out _ _ => nomatch out)
      (fun _ history => ControlEnded kind history) {} := by
  cases kind with
  | handler prepared =>
      exact thread_wp Handler.runTurn_spec ⟨rfl, rfl⟩ (fun _ _ => trivial) fun _ _ => trivial
  | sweep =>
      exact thread_wp reconcileStaleTurns_spec trivial (fun _ _ => trivial) fun _ _ => trivial
  | inline turnId =>
      exact thread_wp (reconcileRead_spec turnId) ⟨rfl, rfl⟩ (fun _ _ => trivial) fun _ _ => trivial
  | listener turnId acquisition =>
      exact thread_wp (leaseExpiredMessage_spec turnId acquisition) trivial (fun _ h => h)
        fun _ h => h
  | shutdown holder =>
      exact thread_wp (releaseAllLocal_spec holder) trivial (fun _ _ => trivial) fun _ _ => trivial

end CodexServer
