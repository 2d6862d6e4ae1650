import CodexServer.Proof.TerminalFrame

/-!
# The final message and the outcome

The final message, its attachment and its journal entry are committed together, the outcome later and
by whoever comes first. They agree as long as the message is committed to an active row, and nothing
comes between it and the `finalize_once` of the execution.
-/

open Transition

namespace CodexServer

/-- The journal says that the turn is completed. -/
def World.hasCompletion (world : World) (turnId : Nat) : Bool :=
  world.journal.any fun entry => entry.turnId = turnId && entry.kind = .turnCompleted

/-- The row has a final message of its turn. -/
def World.Attached (world : World) (turnId : Nat) (row : TurnRow) : Prop :=
  ∃ stored ∈ world.messages, stored.turnId = turnId ∧ stored.message.isPartial = false ∧
    row.assistantMessageId = some stored.message.id

/-- The execution awaits nothing that separates the final message from the outcome: the message is for
an active row, and after it nothing that matters is raised and the ownership is not found lost. -/
def Execution.holdsTogether (execution : Execution) (world : World) (op : Op) :
    Option Fault → Bool
  | none =>
      match op with
      | .persistFinal turnId .. => (world.turns turnId).any fun row => row.status.isActive
      | .ownershipLost => !(execution.history.pending && execution.ownershipLost)
      | _ => true
  | some fault => !execution.history.pending || execution.history.swallowed op fault

/-- The turn is delivered once. -/
def Cluster.deliversOnce (turnId : Nat) (cluster : Cluster) (action : ClusterAction) : Bool :=
  match action with
  | .deliver cfg _ => cfg.turnId ≠ turnId || cluster.undelivered turnId
  | _ => true

/-- Nothing separates the final message from the outcome, and nobody else finalises the turn in
between. -/
def Cluster.united (turnId : Nat) (cluster : Cluster) (action : ClusterAction) : Bool :=
  match action with
  | .advance id raised => (cluster.executions[id]?).all fun execution =>
      execution.turnId ≠ turnId || execution.program.op.all fun op =>
        execution.holdsTogether cluster.world op raised
  | .control id none => (cluster.op (.control id none)).all fun op =>
      op.about ≠ some turnId || !cluster.world.hasCompletion turnId ||
        !(cluster.world.turns turnId).any fun row => row.status.isActive
  | _ => true

/-! ### Messages and the ids of partial ones -/

section

variable {world : World} {self turnId : Nat} {lost : Bool} {op : Op} {history : ExecHistory}
  {cfg : ExecConfig} {row : TurnRow} {cluster next : Cluster} {action : ClusterAction}

/-- The partial messages an execution knows of are messages of its turn, and partial. -/
def World.Partials (world : World) (cfg : ExecConfig) (history : ExecHistory) : Prop :=
  ∀ id ∈ history.partials, id ≤ world.lastMessageId ∧
    ∀ stored ∈ world.messages, stored.message.id = id →
      stored.turnId = cfg.turnId ∧ stored.message.isPartial = true

/-- What is known about the messages: their ids have been given out, and the executions know their
partial ones. -/
structure Cluster.Numbered (cluster : Cluster) : Prop where
  id : ∀ stored ∈ cluster.world.messages, stored.message.id ≤ cluster.world.lastMessageId
  partials : cluster.Records fun world _ cfg history => world.Partials cfg history

/-- The operations that store a message. -/
def Op.isPersist : Op → Bool
  | .persistPartial .. | .persistFinal .. => true
  | _ => false

theorem World.messages_kept (hop : op.isPersist = false) :
    (world.perform self lost op).2.messages = world.messages ∧
      (world.perform self lost op).2.lastMessageId = world.lastMessageId := by
  have heffect := perform_effect world self lost op
  generalize (world.perform self lost op).2 = after at heffect ⊢
  cases heffect with
  | partialStored target draft emitJournal hpersist | finalStored target draft partialIds hpersist =>
      subst hpersist
      cases hop
  | _ => exact ⟨rfl, rfl⟩

/-- The row that is inserted for a draft. -/
def World.newMessage (world : World) (turnId : Nat) (draft : MessageDraft) : StoredMessage :=
  ⟨turnId, (world.appendMessage turnId draft).1⟩

theorem World.persistPartial_messages (target : Nat) (draft : MessageDraft) (emitJournal : Bool) :
    (world.persistPartial target draft emitJournal).2.messages =
        world.messages ++ [world.newMessage target draft] ∧
      (world.persistPartial target draft emitJournal).2.lastMessageId = world.lastMessageId + 1 := by
  cases emitJournal <;> exact ⟨rfl, rfl⟩

theorem World.persistFinal_messages (target : Nat) (draft : MessageDraft) (partialIds : List Nat) :
    (world.persistFinal target draft partialIds).2.messages =
        (world.messages ++ [world.newMessage target draft]).filter
          (fun stored => stored.message.id ∉ partialIds) ∧
      (world.persistFinal target draft partialIds).2.lastMessageId = world.lastMessageId + 1 := by
  unfold World.persistFinal
  simp only
  rw [updateTurn_world]
  exact ⟨rfl, rfl⟩

/-- A message that is there after an operation was there before, or has the next id. -/
theorem World.mem_messages {stored : StoredMessage}
    (h : stored ∈ (world.perform self lost op).2.messages) :
    stored ∈ world.messages ∨ (stored.message.id = world.lastMessageId + 1 ∧
      (world.perform self lost op).2.lastMessageId = world.lastMessageId + 1) := by
  by_cases hop : op.isPersist = true
  · cases op with
    | persistPartial target draft emitJournal =>
        obtain ⟨hmessages, hlast⟩ :=
          world.persistPartial_messages target draft emitJournal
        simp only [World.perform, hmessages, List.mem_append, List.mem_singleton] at h
        rcases h with hold | rfl
        · exact .inl hold
        · exact .inr ⟨rfl, hlast⟩
    | persistFinal target draft partialIds =>
        obtain ⟨hmessages, hlast⟩ := world.persistFinal_messages target draft partialIds
        simp only [World.perform, hmessages, List.mem_filter, List.mem_append,
          List.mem_singleton] at h
        rcases h.1 with hold | rfl
        · exact .inl hold
        · exact .inr ⟨rfl, hlast⟩
    | _ => cases hop
  · rw [(World.messages_kept (by simpa using hop)).1] at h
    exact .inl h

theorem World.lastMessageId_le :
    world.lastMessageId ≤ (world.perform self lost op).2.lastMessageId := by
  by_cases hop : op.isPersist = true
  · cases op with
    | persistPartial target draft emitJournal =>
        exact (Nat.le_succ _).trans (world.persistPartial_messages target draft emitJournal).2.ge
    | persistFinal target draft partialIds =>
        exact (Nat.le_succ _).trans (world.persistFinal_messages target draft partialIds).2.ge
    | _ => cases hop
  · exact (World.messages_kept (by simpa using hop)).2.ge

/-- An id that has been given out is not given out again. -/
theorem World.Partials.kept (h : world.Partials cfg history) :
    (world.perform self lost op).2.Partials cfg history := by
  intro id hid
  obtain ⟨hle, hknown⟩ := h id hid
  refine ⟨hle.trans World.lastMessageId_le, fun stored hstored heq => ?_⟩
  rcases World.mem_messages hstored with hold | ⟨hnew, _⟩
  · exact hknown stored hold heq
  · omega

theorem ExecHistory.done_partials {answer : op.Val} (hop : op.isPersist = false) :
    (history.done turnId op answer).partials = history.partials := by
  cases op with
  | persistPartial => cases hop
  | external call =>
      cases call with
      | startTurn reply => cases reply <;> rfl
      | _ => rfl
  | nextNote note => cases note <;> rfl
  | _ => rfl

/-- What an execution knows after an answer. -/
theorem World.Partials.done (h : world.Partials cfg history)
    (hid : ∀ stored ∈ world.messages, stored.message.id ≤ world.lastMessageId)
    (hallowed : ExecAllowed cfg history op) :
    (world.perform self lost op).2.Partials cfg
      (history.done cfg.turnId op (world.perform self lost op).1) := by
  have hkept : (world.perform self lost op).2.Partials cfg history := h.kept
  cases op with
  | persistPartial target draft emitJournal =>
      obtain ⟨hmessages, hlast⟩ := world.persistPartial_messages target draft emitJournal
      intro id hmem
      rcases List.mem_append.mp hmem with hold | hnew
      · exact hkept id hold
      · obtain rfl : id = world.lastMessageId + 1 := List.mem_singleton.mp hnew
        refine ⟨hlast.ge, fun stored hstored heq => ?_⟩
        simp only [World.perform, hmessages, List.mem_append, List.mem_singleton] at hstored
        rcases hstored with hold | rfl
        · have hle := hid stored hold
          omega
        · exact ⟨hallowed.1, hallowed.2.1⟩
  | persistFinal => exact hkept
  | _ =>
      intro id hmem
      rw [ExecHistory.done_partials rfl] at hmem
      exact hkept id hmem

theorem Cluster.Numbered.step (h : cluster.Numbered) (hconforms : cluster.Conforms)
    (hsteps : cluster.Steps action next) : next.Numbered := by
  have hpartials : ∀ cfg history, cluster.world.Partials cfg history →
      next.world.Partials cfg history := by
    intro cfg history hbefore
    generalize hworld : next.world = world
    have hshared := hsteps.shared
    rw [hworld] at hshared
    cases hshared with
    | tick | bookkeeping => exact hbefore
    | performed => exact hbefore.kept
  constructor
  · generalize hworld : next.world = world
    have hshared := hsteps.shared
    rw [hworld] at hshared
    cases hshared with
    | tick | bookkeeping => exact h.id
    | performed =>
        intro stored hstored
        rcases World.mem_messages hstored with hold | ⟨hnew, hlast⟩
        · exact (h.id stored hold).trans World.lastMessageId_le
        · rw [hnew, hlast]
  · refine h.partials.step hsteps (fun cfg _ id hid => absurd hid List.not_mem_nil) ?_ ?_
    · exact fun _ _ _ _ hbefore => hpartials _ _ hbefore
    · intro id execution after op raised _ hexecution hawaits hbefore
      have hallowed := hawaits.allowed
        (hconforms.executions execution (List.mem_of_getElem? hexecution))
      generalize hworld : next.world = world at hawaits ⊢
      cases hawaits with
      | answered => exact hbefore.done h.id hallowed
      | raised => exact hbefore

theorem reach_numbered {Allowed : Cluster → ClusterAction → Prop} {users : Nat → Bool}
    (hreach : Reach Cluster.step Allowed (Cluster.init users) cluster) : cluster.Numbered := by
  refine hreach.invariant_with Cluster.Numbered reach_conforms ?_ fun _ _ _ hconforms h _ hstep =>
    h.step hconforms (Cluster.steps_of_step hstep)
  exact ⟨fun _ hmem => absurd hmem List.not_mem_nil,
    fun _ _ hexecution => by simp [Cluster.init] at hexecution⟩

/-! ### What the others do -/

/-- The entry of the final persist comes with it. -/
theorem World.hasCompletion_kept
    (hpersist : ∀ draft partialIds, op ≠ .persistFinal turnId draft partialIds)
    (hemit : ∀ chatId, op ≠ .emitEvent turnId chatId .turnCompleted) :
    (world.perform self lost op).2.hasCompletion turnId = world.hasCompletion turnId := by
  have heffect := perform_effect world self lost op
  generalize (world.perform self lost op).2 = after at heffect ⊢
  cases heffect with
  | partialStored target draft emitJournal hop journal hjournal hkept =>
      rw [Bool.eq_iff_iff]
      simp only [World.hasCompletion, List.any_eq_true, Bool.and_eq_true, decide_eq_true_eq]
      constructor
      · rintro ⟨entry, hentry, hturn, hkind⟩
        rcases hjournal entry hentry with hold | hfailed
        · exact ⟨entry, hold, hturn, hkind⟩
        · cases hfailed.symm.trans hkind
      · rintro ⟨entry, hentry, hown⟩
        exact ⟨entry, hkept entry hentry, hown⟩
  | finalStored target draft partialIds hop turns =>
      have htarget : target ≠ turnId := by
        rintro rfl
        exact hpersist draft partialIds hop
      simp [World.hasCompletion, World.emit, World.deleteMessages, World.appendMessage, htarget]
  | emitted target chatId kind hop =>
      have hother : ¬(target = turnId ∧ kind = .turnCompleted) := by
        rintro ⟨rfl, rfl⟩
        exact hemit chatId hop
      simp [World.hasCompletion, World.emit, hother]
  | _ => rfl

/-- A row that gets no final message, and that is not completed. -/
theorem World.Timed.row_kept (h : world.Timed) (hrow : world.turns turnId = some row)
    (hpersist : ∀ draft partialIds, op ≠ .persistFinal turnId draft partialIds)
    (hfinal : ∀ status errorCode errorDetail,
      op = .finalizeOnce turnId status errorCode errorDetail → status = .failed) (self : Nat)
    (lost : Bool) : ∃ after, (world.perform self lost op).2.turns turnId = some after ∧
      row.Leads after ∧ after.assistantMessageId = row.assistantMessageId ∧
      (after.status = .completed → row.status = .completed) := by
  have hstep : RowStep world op turnId (world.turns turnId)
      ((world.perform self lost op).2.turns turnId) := perform_row
  generalize (world.perform self lost op).2.turns turnId = later at hstep ⊢
  rw [hrow] at hstep
  generalize hbefore : some row = before at hstep
  cases hstep with
  | unchanged => exact ⟨row, hbefore.symm, .refl row, rfl, fun hcompleted => hcompleted⟩
  | updated statement hstatement happly =>
      obtain rfl := Option.some.inj hbefore
      refine ⟨_, rfl, (TurnUpdate.apply_leads hstatement happly (h.heartbeat turnId row hrow)).1, ?_⟩
      cases op with
      | markRunning =>
          cases hstatement
          obtain ⟨_, hafter⟩ := Option.ite_none_right_eq_some.mp happly
          cases hafter
          exact ⟨rfl, nofun⟩
      | heartbeat =>
          cases hstatement
          obtain ⟨_, hafter⟩ := Option.ite_none_right_eq_some.mp happly
          cases hafter
          exact ⟨rfl, fun hcompleted => hcompleted⟩
      | updateLastEvent =>
          cases hstatement
          cases happly
          exact ⟨rfl, fun hcompleted => hcompleted⟩
      | finalizeOnce target status errorCode errorDetail =>
          cases hstatement
          obtain rfl := hfinal status errorCode errorDetail rfl
          obtain ⟨_, hafter⟩ := Option.ite_none_right_eq_some.mp happly
          cases hafter
          exact ⟨rfl, nofun⟩
      | persistFinal target draft partialIds =>
          cases hstatement
          exact absurd rfl (hpersist draft partialIds)
      | _ => cases hstatement
  | created _ payload hcreate huser hturn =>
      have hid := h.id turnId row hrow
      omega

/-- Somebody else stores no message of the turn. -/
theorem Op.foreign_persist (hpersist : op.isPersist = true)
    (hforeign : op.about = some turnId →
      op = .heartbeat turnId ∨ (action.isControl = true ∧ op.isFinalize = true)) :
    op.about ≠ some turnId := by
  intro habout
  rcases hforeign habout with rfl | ⟨_, hfinal⟩
  · cases hpersist
  · cases op with
    | finalizeOnce => cases hpersist
    | _ => cases hfinal

/-- The messages of the turn when somebody else stores or deletes some. -/
theorem Cluster.Others.messages (h : cluster.Others turnId action world) (hnumbered : cluster.Numbered)
    (hconforms : cluster.Conforms) {stored : StoredMessage} (hturn : stored.turnId = turnId) :
    stored ∈ world.messages ↔ stored ∈ cluster.world.messages := by
  cases h with
  | tick | bookkeeping => exact Iff.rfl
  | performed self lost op hop hraised hforeign hapart =>
      by_cases hpersist : op.isPersist = true
      · cases hconforms.actor hop with
        | heartbeat id raised hexecution hheartbeat hbeat =>
            unfold Heartbeat.op at hbeat
            split at hbeat <;> cases hbeat <;> cases hpersist
        | control id raised hcontrol hallowed => 
            cases op with
            | persistPartial | persistFinal => exact hallowed.elim
            | _ => cases hpersist
        | @execution id raised execution hexecution hallowed =>
            cases op with
            | persistPartial target draft emitJournal =>
                have htarget : target ≠ turnId := fun htarget =>
                  Op.foreign_persist hpersist hforeign (congrArg some htarget)
                simp only [World.perform, (World.persistPartial_messages target draft emitJournal).1,
                  List.mem_append, List.mem_singleton, or_iff_left_iff_imp]
                rintro rfl
                exact absurd hturn htarget
            | persistFinal target draft partialIds =>
                have htarget : target ≠ turnId := fun htarget =>
                  Op.foreign_persist hpersist hforeign (congrArg some htarget)
                obtain ⟨hown, _, _, _, _, hpartials⟩ := hallowed
                simp only [World.perform, (World.persistFinal_messages target draft partialIds).1,
                  List.mem_filter, List.mem_append, List.mem_singleton, decide_eq_true_eq]
                constructor
                · rintro ⟨hold | rfl, _⟩
                  · exact hold
                  · exact absurd hturn htarget
                · intro hold
                  refine ⟨.inl hold, fun hmem => htarget ?_⟩
                  have hknown := (hnumbered.partials id execution hexecution stored.message.id
                    (hpartials ▸ hmem)).2 stored hold rfl
                  exact hown.trans (hknown.1.symm.trans hturn)
            | _ => cases hpersist
      · rw [(World.messages_kept (by simpa using hpersist)).1]

/-! ### The record of the execution -/

/-- What the record of the execution has to do with the row. -/
structure ExecHistory.Concludes (turnId : Nat) (world : World) (history : ExecHistory)
    (row : TurnRow) : Prop where
  done : row.status = .completed → history.hasDone = true
  closed : history.requested.isSome = true → row.status.isTerminal = true
  attached : history.persisted = true → world.Attached turnId row
  outcome : history.persisted = true →
    row.status = .completed ∨ (row.status.isActive = true ∧ history.requested = none)

/-- What it has to do with the journal, the messages and the row of its turn. -/
structure ExecHistory.Accounts (turnId : Nat) (world : World) (history : ExecHistory) : Prop where
  whole : history.torn = false
  completion : world.hasCompletion turnId = history.persisted
  messages : ∀ stored ∈ world.messages, stored.turnId = turnId →
    stored.message.isPartial = !history.persisted ∧
      (history.persisted = false → stored.message.id ∈ history.partials)
  content : history.hasDone = true →
    history.persisted = true ∨ history.collector.hasContent = false
  row : ∃ row, world.turns turnId = some row ∧ history.Concludes turnId world row

/-- An operation that stores no message of the turn, and completes neither the row nor the journal. -/
theorem ExecHistory.Accounts.moved (h : history.Accounts turnId world) (htimed : world.Timed)
    (hpersist : ∀ draft partialIds, op ≠ .persistFinal turnId draft partialIds)
    (hemit : ∀ chatId, op ≠ .emitEvent turnId chatId .turnCompleted)
    (hfinal : ∀ status errorCode errorDetail,
      op = .finalizeOnce turnId status errorCode errorDetail → status = .failed)
    (hopen : history.persisted = true → ∀ row, world.turns turnId = some row →
      row.status.isActive = true → op.leavesStatus turnId)
    (hmessages : ∀ stored, stored.turnId = turnId →
      (stored ∈ (world.perform self lost op).2.messages ↔ stored ∈ world.messages)) :
    history.Accounts turnId (world.perform self lost op).2 := by
  obtain ⟨row, hrow, hconcludes⟩ := h.row
  obtain ⟨after, hafter, hleads, hattached, hcompleted⟩ :=
    htimed.row_kept hrow hpersist hfinal self lost
  refine ⟨h.whole, (World.hasCompletion_kept hpersist hemit).trans h.completion,
    fun stored hstored hturn => h.messages stored ((hmessages stored hturn).mp hstored) hturn,
    h.content, after, hafter, ?_⟩
  constructor
  · exact fun hstatus => hconcludes.done (hcompleted hstatus)
  · intro hrequested
    have hterminal := hconcludes.closed hrequested
    exact (hleads.terminal hterminal).symm ▸ hterminal
  · intro hpersisted
    obtain ⟨stored, hstored, hturn, hfinal, hid⟩ := hconcludes.attached hpersisted
    exact ⟨stored, (hmessages stored hturn).mpr hstored, hturn, hfinal, hattached.trans hid⟩
  · intro hpersisted
    rcases hconcludes.outcome hpersisted with hstatus | ⟨hactive, hnone⟩
    · exact .inl ((hleads.terminal (by rw [hstatus]; rfl)).trans hstatus)
    · obtain ⟨later, hlater, _, hkept⟩ :=
        htimed.status_kept hrow (hopen hpersisted row hrow hactive) self lost
      obtain rfl := Option.some.inj (hafter.symm.trans hlater)
      exact .inr ⟨hkept.trans hactive, hnone⟩

/-- A state with the same rows, messages and entries. -/
theorem ExecHistory.Accounts.same {after : World} (h : history.Accounts turnId world)
    (hturns : after.turns = world.turns) (hmessages : after.messages = world.messages)
    (hjournal : after.journal = world.journal) : history.Accounts turnId after := by
  obtain ⟨row, hrow, hconcludes⟩ := h.row
  refine ⟨h.whole, ?_, ?_, h.content, row, (congrFun hturns turnId).trans hrow, hconcludes.done,
    hconcludes.closed, fun hpersisted => ?_, hconcludes.outcome⟩
  · rw [World.hasCompletion, hjournal]
    exact h.completion
  · rw [hmessages]
    exact h.messages
  · rw [World.Attached, hmessages]
    exact hconcludes.attached hpersisted

/-- Another record of the same state. -/
theorem ExecHistory.Accounts.follow {other : ExecHistory} (h : history.Accounts turnId world)
    (hwhole : other.torn = false) (hpersisted : other.persisted = history.persisted)
    (hpartials : other.partials = history.partials)
    (hrequested : other.requested = history.requested)
    (hdone : history.hasDone = true → other.hasDone = true)
    (hcontent : other.hasDone = true →
      history.persisted = true ∨ other.collector.hasContent = false) :
    other.Accounts turnId world := by
  obtain ⟨row, hrow, hconcludes⟩ := h.row
  refine ⟨hwhole, h.completion.trans hpersisted.symm, ?_, ?_, row, hrow, ?_⟩
  · rw [hpersisted, hpartials]
    exact h.messages
  · rw [hpersisted]
    exact hcontent
  · refine ⟨fun hstatus => hdone (hconcludes.done hstatus), ?_, ?_, ?_⟩
    · rw [hrequested]
      exact hconcludes.closed
    · rw [hpersisted]
      exact hconcludes.attached
    · rw [hpersisted, hrequested]
      exact hconcludes.outcome

/-- The record after an answer that neither stores a message nor decides the outcome. -/
theorem ExecHistory.Accounts.answered (h : history.Accounts turnId world)
    (hallowed : ExecAllowed cfg history op) (hpersist : op.isPersist = false)
    (hfinal : op.isFinalize = false) {answer : op.Val}
    (hwhole : (history.done turnId op answer).torn = false) :
    (history.done turnId op answer).Accounts turnId world := by
  have hquiet : history.hasTerminal = false → history.hasDone = false := fun hquiet => by
    rw [ExecHistory.hasTerminal_eq, Bool.or_eq_false_iff] at hquiet
    exact hquiet.1
  cases op with
  | persistPartial | persistFinal => cases hpersist
  | finalizeOnce => cases hfinal
  | xadd target event =>
      refine h.follow hwhole rfl rfl rfl (fun hdone => ?_) fun hdone => ?_
      · simpa [ExecHistory.done, ExecHistory.hasDone] using Or.inl (List.any_eq_true.mp hdone)
      · simp only [ExecHistory.done, ExecHistory.hasDone, List.any_append, List.any_cons,
          List.any_nil, Bool.or_false, Bool.or_eq_true] at hdone
        exact hdone.elim h.content hallowed.2.2.2.2
  | ownershipLost => exact h.follow hwhole rfl rfl rfl id h.content
  | nextNote note =>
      -- a notification comes before the terminal frame
      have hnone := hquiet hallowed.1
      cases note with
      | event event =>
          refine h.follow hwhole rfl rfl rfl id fun hdone => ?_
          have hdone : history.hasDone = true := hdone
          simp [hnone] at hdone
      | idle probed => exact h.follow hwhole rfl rfl rfl id h.content
  | external call =>
      cases call with
      | startTurn reply => cases reply <;> exact h.follow hwhole rfl rfl rfl id h.content
      | _ => exact h
  | _ => exact h.follow hwhole rfl rfl rfl id h.content

theorem ExecHistory.Accounts.finalizeOnce (h : history.Accounts turnId world)
    {status : TerminalStatus} {errorCode errorDetail : Option String}
    (hallowed : ExecAllowed cfg history (.finalizeOnce turnId status errorCode errorDetail)) :
    (history.done turnId (.finalizeOnce turnId status errorCode errorDetail)
      (world.perform self lost (.finalizeOnce turnId status errorCode errorDetail)).1).Accounts turnId
      (world.perform self lost (.finalizeOnce turnId status errorCode errorDetail)).2 := by
  obtain ⟨_, _, hnone, hcompletes, _, hpersisted⟩ := hallowed
  obtain ⟨row, hrow, hconcludes⟩ := h.row
  have hcompletion : (world.perform self lost
      (.finalizeOnce turnId status errorCode errorDetail)).2.hasCompletion turnId =
      world.hasCompletion turnId :=
    World.hasCompletion_kept (fun _ _ hop => by cases hop) fun _ hop => by cases hop
  refine ⟨h.whole, hcompletion.trans h.completion, ?_, h.content, ?_⟩
  · rw [(World.messages_kept rfl).1]
    exact h.messages
  · by_cases hactive : row.status.isActive = true
    · obtain ⟨_, after, hafter, hstatus, hattached⟩ := World.finalizeOnce_row hrow hactive
      refine ⟨after, hafter, fun hstatus' => hcompletes (Subtype.ext (hstatus.symm.trans hstatus')),
        fun _ => hstatus ▸ status.property, fun hfinal => ?_, fun hfinal => ?_⟩
      · obtain ⟨stored, hstored, hturn, hwhole, hid⟩ := hconcludes.attached hfinal
        refine ⟨stored, ?_, hturn, hwhole, hattached.trans hid⟩
        rw [(World.messages_kept rfl).1]
        exact hstored
      · left
        rw [hstatus, hpersisted h.whole hfinal]
        rfl
    · have hterminal : row.status.isTerminal = true := by simpa using hactive
      have hkept : (world.perform self lost
          (.finalizeOnce turnId status errorCode errorDetail)).2 = world := by
        simp [World.perform, World.updateTurn, hrow, TurnRow.finalizeOnce, hterminal]
      rw [hkept]
      exact ⟨row, hrow, hconcludes.done, fun _ => hterminal, hconcludes.attached, fun hfinal =>
        .inl ((hconcludes.outcome hfinal).resolve_right fun hopen => hactive hopen.1)⟩

theorem ExecHistory.Accounts.persistPartial (h : history.Accounts turnId world)
    (htimed : world.Timed) {draft : MessageDraft} {emitJournal : Bool}
    (hallowed : ExecAllowed cfg history (.persistPartial turnId draft emitJournal)) :
    (history.done turnId (.persistPartial turnId draft emitJournal)
      (world.perform self lost (.persistPartial turnId draft emitJournal)).1).Accounts turnId
      (world.perform self lost (.persistPartial turnId draft emitJournal)).2 := by
  obtain ⟨_, hpartial, _, hunpersisted⟩ := hallowed
  obtain ⟨row, hrow, hconcludes⟩ := h.row
  obtain ⟨after, hafter, hleads, _, hcompleted⟩ : ∃ after, (world.perform self lost
      (.persistPartial turnId draft emitJournal)).2.turns turnId = some after ∧ row.Leads after ∧
      after.assistantMessageId = row.assistantMessageId ∧
      (after.status = .completed → row.status = .completed) :=
    htimed.row_kept hrow (fun _ _ hop => by cases hop) (fun _ _ _ hop => by cases hop) self lost
  have hcompletion : (world.perform self lost
      (.persistPartial turnId draft emitJournal)).2.hasCompletion turnId =
      world.hasCompletion turnId :=
    World.hasCompletion_kept (fun _ _ hop => by cases hop) fun _ hop => by cases hop
  have hstays : history.persisted ≠ true := by simp [hunpersisted]
  refine ⟨h.whole, hcompletion.trans h.completion, ?_, h.content, after, hafter,
    fun hstatus => hconcludes.done (hcompleted hstatus), fun hrequested => ?_,
    fun hpersisted => absurd hpersisted hstays, fun hpersisted => absurd hpersisted hstays⟩
  · intro stored hstored hturn
    simp only [World.perform, (World.persistPartial_messages turnId draft emitJournal).1,
      List.mem_append, List.mem_singleton] at hstored
    rcases hstored with hold | rfl
    · obtain ⟨hmark, hknown⟩ := h.messages stored hold hturn
      exact ⟨hmark, fun hnone => List.mem_append_left _ (hknown hnone)⟩
    · refine ⟨?_, fun _ => List.mem_append_right _ (List.mem_singleton.mpr rfl)⟩
      exact hpartial.trans (by simp [ExecHistory.done, hunpersisted])
  · have hterminal := hconcludes.closed hrequested
    exact (hleads.terminal hterminal).symm ▸ hterminal

/-- **The final persist**, for an active row: of the messages of the turn the final one is left. -/
theorem ExecHistory.Accounts.persistFinal (h : history.Accounts turnId world)
    (hknown : world.Partials cfg history) {draft : MessageDraft} {partialIds : List Nat}
    (hallowed : ExecAllowed cfg history (.persistFinal turnId draft partialIds))
    (hactive : (world.turns turnId).any fun row => row.status.isActive) :
    (history.done turnId (.persistFinal turnId draft partialIds)
      (world.perform self lost (.persistFinal turnId draft partialIds)).1).Accounts turnId
      (world.perform self lost (.persistFinal turnId draft partialIds)).2 := by
  obtain ⟨_, hwhole, _, hunpersisted, hquiet, rfl⟩ := hallowed
  have hmessages := (world.persistFinal_messages turnId draft history.partials).1
  obtain ⟨row, hrow, hconcludes⟩ := h.row
  have hopen : row.status.isActive = true := by simpa [hrow] using hactive
  have hnone : history.requested = none := by
    by_contra hsome
    have hterminal := hconcludes.closed (Option.isSome_iff_ne_none.mpr hsome)
    simp [hterminal] at hopen
  have hafter : (world.perform self lost (.persistFinal turnId draft history.partials)).2.turns turnId =
      some (row.attachAssistantMessage (world.lastMessageId + 1)) := by
    simp [World.perform, World.persistFinal, World.emit, World.deleteMessages, World.updateTurn,
      World.appendMessage, hrow]
  have hnew : world.newMessage turnId draft ∈
      (world.perform self lost (.persistFinal turnId draft history.partials)).2.messages := by
    simp only [World.perform, hmessages, List.mem_filter, List.mem_append, List.mem_singleton,
      or_true, true_and, decide_eq_true_eq]
    intro hmem
    have hle := (hknown _ hmem).1
    exact absurd hle (Nat.not_succ_le_self _)
  refine ⟨h.whole, ?_, ?_, fun _ => .inl rfl, _, hafter, ?_, ?_, fun _ => ?_, fun _ => ?_⟩
  · simp [World.perform, World.persistFinal, World.emit, World.hasCompletion, ExecHistory.done]
  · intro stored hstored hturn
    simp only [World.perform, hmessages, List.mem_filter, List.mem_append, List.mem_singleton,
      decide_eq_true_eq] at hstored
    obtain ⟨hold | rfl, hleft⟩ := hstored
    · exact absurd ((h.messages stored hold hturn).2 hunpersisted) hleft
    · exact ⟨hwhole, fun hunwritten => by cases hunwritten⟩
  · exact fun hstatus => hconcludes.done hstatus
  · exact fun hrequested => hconcludes.closed hrequested
  · exact ⟨_, hnew, rfl, hwhole, rfl⟩
  · exact .inr ⟨hopen, hnone⟩

/-! ### Runs -/

/-- Before the turn is executed it has neither a message nor an entry, and nobody has completed it. -/
def World.Unwritten (turnId : Nat) (world : World) : Prop :=
  world.hasCompletion turnId = false ∧ (∀ stored ∈ world.messages, stored.turnId ≠ turnId) ∧
    ∀ row, world.turns turnId = some row → row.status ≠ .completed

/-- The turn as its one execution accounts for it. -/
abbrev Cluster.Accounted (turnId : Nat) (cluster : Cluster) : Prop :=
  cluster.Sole turnId (World.Unwritten turnId) fun world _ history =>
    history.Accounts turnId world

theorem World.Unwritten.accounts (h : world.Unwritten turnId)
    (hrow : (world.turns turnId).isSome) : ExecHistory.Accounts turnId world {} := by
  obtain ⟨row, hrow⟩ := Option.isSome_iff_exists.mp hrow
  refine ⟨rfl, h.1, fun stored hstored hturn => absurd hturn (h.2.1 stored hstored), ?_, row, hrow, ?_⟩
  · intro hdone
    cases hdone
  · refine ⟨fun hstatus => absurd hstatus (h.2.2 row hrow), ?_, ?_, ?_⟩ <;>
    · intro hsome
      cases hsome

/-- Nobody but the execution of a turn completes it. -/
theorem Cluster.Conforms.foreign_final (hconforms : cluster.Conforms)
    (hop : cluster.op action = some op)
    (hforeign : op.about = some turnId →
      op = .heartbeat turnId ∨ (action.isControl = true ∧ op.isFinalize = true))
    {status : TerminalStatus} {errorCode errorDetail : Option String}
    (hfinal : op = .finalizeOnce turnId status errorCode errorDetail) : status = .failed := by
  subst hfinal
  rcases hforeign rfl with hbeat | ⟨haction, _⟩
  · cases hbeat
  · cases hconforms.actor hop with
    | control id raised hcontrol hallowed => exact hallowed.1
    | execution => cases haction
    | heartbeat => cases haction

theorem World.Unwritten.perform (h : world.Unwritten turnId) (htimed : world.Timed)
    (hpersist : ∀ draft partialIds, op ≠ .persistFinal turnId draft partialIds)
    (hemit : ∀ chatId, op ≠ .emitEvent turnId chatId .turnCompleted)
    (hfinal : ∀ status errorCode errorDetail,
      op = .finalizeOnce turnId status errorCode errorDetail → status = .failed)
    (hmessages : ∀ stored, stored.turnId = turnId →
      (stored ∈ (world.perform self lost op).2.messages ↔ stored ∈ world.messages)) :
    (world.perform self lost op).2.Unwritten turnId := by
  refine ⟨(World.hasCompletion_kept hpersist hemit).trans h.1, fun stored hstored hturn => ?_,
    fun after hafter hcompleted => ?_⟩
  · exact h.2.1 stored ((hmessages stored hturn).mp hstored) hturn
  · cases hrow : world.turns turnId with
    | some row =>
        obtain ⟨later, hlater, _, _, hkept⟩ := htimed.row_kept hrow hpersist hfinal self lost
        obtain rfl := Option.some.inj (hafter.symm.trans hlater)
        exact h.2.2 row hrow (hkept hcompleted)
    | none =>
        have hstep : RowStep world op turnId (world.turns turnId)
            ((world.perform self lost op).2.turns turnId) := perform_row
        rw [hafter, hrow] at hstep
        generalize hlater : some after = later at hstep
        cases hstep with
        | unchanged => cases hlater
        | created =>
            obtain rfl := Option.some.inj hlater
            cases hcompleted

/-- What the others do leaves the account as it is. -/
theorem Cluster.Others.accounted (h : cluster.Others turnId action world)
    (htimed : cluster.world.Timed) (hnumbered : cluster.Numbered) (hconforms : cluster.Conforms)
    (hunited : cluster.united turnId action = true) :
    (cluster.world.Unwritten turnId → world.Unwritten turnId) ∧
      ∀ history : ExecHistory, history.Accounts turnId cluster.world →
        history.Accounts turnId world := by
  have hmessages : ∀ stored : StoredMessage, stored.turnId = turnId →
      (stored ∈ world.messages ↔ stored ∈ cluster.world.messages) := fun stored =>
    h.messages hnumbered hconforms
  cases h with
  | tick | bookkeeping =>
      exact ⟨fun hunwritten => hunwritten, fun _ haccounts => haccounts.same rfl rfl rfl⟩
  | performed self lost op hop hraised hforeign hapart =>
      have hpersist : ∀ draft partialIds, op ≠ .persistFinal turnId draft partialIds := by
        rintro draft partialIds rfl
        exact Op.foreign_persist rfl hforeign rfl
      have hemit : ∀ chatId, op ≠ .emitEvent turnId chatId .turnCompleted := by
        rintro chatId rfl
        rcases hforeign rfl with hbeat | ⟨_, hfinal⟩
        · cases hbeat
        · cases hfinal
      have hfinal : ∀ status errorCode errorDetail,
          op = .finalizeOnce turnId status errorCode errorDetail → status = .failed :=
        fun _ _ _ => hconforms.foreign_final hop hforeign
      refine ⟨fun hunwritten => hunwritten.perform htimed hpersist hemit hfinal hmessages,
        fun history haccounts =>
          haccounts.moved htimed hpersist hemit hfinal (fun hpersisted row hrow hactive => ?_)
            hmessages⟩
      refine Op.leavesStatus_of_foreign hforeign fun hcontrol => ?_
      cases action with
      | control id raised =>
          obtain rfl : raised = none := hraised
          have hcompletion : cluster.world.hasCompletion turnId = true :=
            haccounts.completion.trans hpersisted
          simp only [Cluster.united, hop, Option.all_some, hcompletion, hrow, Option.any_some,
            hactive, Bool.not_true, Bool.or_false, ne_eq, decide_not, Bool.not_eq_true',
            decide_eq_false_iff_not] at hunited
          cases op with
          | finalizeOnce target => exact fun htarget => hunited (congrArg some htarget)
          | _ => trivial
      | _ => cases hcontrol

/-- What the execution does itself. -/
theorem ExecHistory.Accounts.done (h : history.Accounts turnId world) (htimed : world.Timed)
    (hknown : world.Partials cfg history) (hallowed : ExecAllowed cfg history op)
    (hturn : cfg.turnId = turnId)
    (hwhole : (history.done turnId op (world.perform self lost op).1).torn = false)
    (hactive : ∀ draft partialIds, op = .persistFinal turnId draft partialIds →
      (world.turns turnId).any fun row => row.status.isActive) :
    (history.done turnId op (world.perform self lost op).1).Accounts turnId
      (world.perform self lost op).2 := by
  by_cases hpersist : op.isPersist = true
  · cases op with
    | persistPartial target draft emitJournal =>
        obtain rfl : target = turnId := hallowed.1.trans hturn
        exact h.persistPartial htimed hallowed
    | persistFinal target draft partialIds =>
        obtain rfl : target = turnId := hallowed.1.trans hturn
        exact h.persistFinal hknown hallowed (hactive draft partialIds rfl)
    | _ => cases hpersist
  by_cases hfinal : op.isFinalize = true
  · cases op with
    | finalizeOnce target status errorCode errorDetail =>
        obtain rfl : target = turnId := hallowed.1.trans hturn
        exact h.finalizeOnce hallowed
    | _ => cases hfinal
  have hmoved : history.Accounts turnId (world.perform self lost op).2 := by
    refine h.moved htimed ?_ ?_ ?_ (fun _ _ _ _ => ?_) fun stored _ => ?_
    · rintro draft partialIds rfl
      exact hpersist rfl
    · rintro chatId rfl
      exact hallowed.2 rfl
    · rintro status errorCode errorDetail rfl
      exact absurd rfl hfinal
    · cases op with
      | finalizeOnce => exact absurd rfl hfinal
      | _ => trivial
    · rw [(World.messages_kept (by simpa using hpersist)).1]
  exact hmoved.answered hallowed (by simpa using hpersist) (by simpa using hfinal) hwhole

theorem ExecHistory.Accounts.fault (h : history.Accounts turnId world) {raised : Fault}
    (hheld : history.pending = false ∨ history.swallowed op raised = true) :
    (history.fault op raised).Accounts turnId world := by
  refine h.follow ?_ rfl rfl rfl id h.content
  rcases hheld with hheld | hheld <;> simp [ExecHistory.fault, hheld, h.whole]

theorem ExecHistory.done_torn {answer : op.Val} (hop : op ≠ .ownershipLost) :
    (history.done turnId op answer).torn = history.torn := by
  cases op with
  | ownershipLost => exact absurd rfl hop
  | external call =>
      cases call with
      | startTurn reply => cases reply <;> rfl
      | _ => rfl
  | nextNote note => cases note <;> rfl
  | _ => rfl

theorem Cluster.Accounted.step (h : cluster.Accounted turnId) (hconforms : cluster.Conforms)
    (htimed : cluster.world.Timed) (hrowed : cluster.Rowed) (hnumbered : cluster.Numbered)
    (hallowed : cluster.deliversOnce turnId action = true ∧ cluster.united turnId action = true)
    (hsteps : cluster.Steps action next) : next.Accounted turnId := by
  refine Cluster.Sole.step h hconforms hsteps ?_ ?_ ?_ ?_
  · rintro cfg again rfl hturn
    simpa [Cluster.deliversOnce, hturn] using hallowed.1
  · intro cfg hqueue _ hunwritten
    exact hunwritten.accounts (hrowed.queue turnId hqueue)
  · intro world hothers
    have hkept := hothers.accounted htimed hnumbered hconforms hallowed.2
    exact ⟨hkept.1, fun _ history => hkept.2 history⟩
  · intro id execution after op raised haction hexecution hturn hawaits haccounts
    subst haction
    have hown := hconforms.executions execution (List.mem_of_getElem? hexecution)
    have hpermitted := hawaits.allowed hown
    obtain ⟨rest, hprogram⟩ := hawaits.program_eq
    have hheld : execution.holdsTogether cluster.world op raised = true := by
      simpa [Cluster.united, hexecution, hprogram, Thread.op, hturn] using hallowed.2
    generalize hnext : next.world = world at hawaits ⊢
    cases hawaits with
    | answered =>
        have hcfg : execution.cfg.turnId = turnId := hturn
        rw [show execution.turnId = turnId from hturn]
        refine haccounts.done htimed (hnumbered.partials id execution hexecution) hpermitted hcfg ?_ ?_
        · by_cases hop : op = .ownershipLost
          · subst hop
            simp only [Execution.holdsTogether, Bool.not_eq_true'] at hheld
            simp [ExecHistory.done, World.perform, haccounts.whole, hheld]
          · rw [ExecHistory.done_torn hop]
            exact haccounts.whole
        · rintro draft partialIds rfl
          exact hheld
    | raised failure =>
        refine haccounts.fault ?_
        simpa [Execution.holdsTogether] using hheld

theorem reach_accounted {users : Nat → Bool}
    (hreach : Reach Cluster.step (fun cluster action =>
      cluster.deliversOnce turnId action = true ∧ cluster.united turnId action = true)
      (Cluster.init users) cluster) : cluster.Accounted turnId := by
  refine hreach.invariant_with (Cluster.Accounted turnId)
    (fun hbefore => And.intro (reach_conforms hbefore) (And.intro (reach_timed hbefore)
      (And.intro (reach_rowed hbefore) (reach_numbered hbefore)))) ?_ ?_
  · refine ⟨fun id other execution later hexecution => ?_, fun _ => ⟨rfl, ?_, ?_⟩,
      fun id execution hexecution => ?_⟩
    · simp [Cluster.init] at hexecution
    · exact fun stored hstored => absurd hstored List.not_mem_nil
    · intro row hrow
      cases hrow
    · simp [Cluster.init] at hexecution
  · intro before action after hknown h hallowed hstep
    exact Cluster.Accounted.step h hknown.1 hknown.2.1 hknown.2.2.1 hknown.2.2.2 hallowed
      (Cluster.steps_of_step hstep)

/-- **The final message and the outcome are one fact.** When the turn has one execution, which has
produced something, and nothing separates its final message from the outcome, then once the row is
terminal the journal has the turn completed, and the row its final message, just if the row is
COMPLETED; beside a final message there is no partial one. -/
theorem final_persist_agrees {users : Nat → Bool}
    (hreach : Reach Cluster.step (fun cluster action =>
      cluster.deliversOnce turnId action = true ∧ cluster.united turnId action = true)
      (Cluster.init users) cluster) {id : Nat} {execution : Execution}
    (hexecution : cluster.executions[id]? = some execution) (hturn : execution.turnId = turnId)
    (hcontent : execution.history.collector.hasContent = true)
    (hrow : cluster.world.turns turnId = some row) (hterminal : row.status.isTerminal = true) :
    (cluster.world.hasCompletion turnId = true ↔ row.status = .completed) ∧
      (cluster.world.Attached turnId row ↔ row.status = .completed) ∧
      (cluster.world.Attached turnId row →
        ∀ stored ∈ cluster.world.messages, stored.turnId = turnId →
          stored.message.isPartial = false) := by
  have haccounts := (reach_accounted hreach).own id execution hexecution hturn
  obtain ⟨own, hown, hconcludes⟩ := haccounts.row
  obtain rfl := Option.some.inj (hrow.symm.trans hown)
  have hpersisted : execution.history.persisted = true ↔ row.status = .completed := by
    constructor
    · intro hpersisted
      refine (hconcludes.outcome hpersisted).resolve_right fun hopen => ?_
      have hactive := hopen.1
      simp [hterminal] at hactive
    · intro hstatus
      refine (haccounts.content (hconcludes.done hstatus)).resolve_right fun hempty => ?_
      simp [hcontent] at hempty
  have hattached : cluster.world.Attached turnId row ↔ execution.history.persisted = true := by
    refine ⟨fun ⟨stored, hstored, hown, hfinal, _⟩ => ?_, hconcludes.attached⟩
    simpa [hfinal] using (haccounts.messages stored hstored hown).1
  refine ⟨?_, hattached.trans hpersisted, fun hfinal stored hstored hown => ?_⟩
  · rw [haccounts.completion]
    exact hpersisted
  · rw [(haccounts.messages stored hstored hown).1, hattached.mp hfinal]
    rfl

end

/-! ### A turn that is answered, and a fault after its final persist -/

/-- Whether the journal has the turn completed, the status of its row and the message attached to it,
and of each message its id and whether it is partial. -/
structure Persisted where
  completed : Bool
  status : Option TurnStatus
  attached : Option Nat
  messages : List (Nat × Bool)
deriving DecidableEq

def Cluster.persisted (cluster : Cluster) : Persisted where
  completed := cluster.world.hasCompletion 1
  status := (cluster.world.turns 1).map TurnRow.status
  attached := (cluster.world.turns 1).bind TurnRow.assistantMessageId
  messages := cluster.world.messages.map fun stored =>
    (stored.message.id, stored.message.isPartial)

theorem final_persist_agrees_answered : ∃ cluster,
    executedRun (List.replicate 32 (.advance 0 none)) = some cluster ∧
    cluster.persisted = ⟨true, some .completed, some 1, [(1, false)]⟩ ∧
    ∃ row, cluster.world.turns 1 = some row ∧ cluster.world.Attached 1 row := by
  have hallowed : RunAllowed Cluster.step (fun cluster action =>
      cluster.deliversOnce 1 action = true ∧ cluster.united 1 action = true)
      (Cluster.init fun _ => true) (executedTurn (List.replicate 32 (.advance 0 none))) := by decide
  have hseen : (executedRun (List.replicate 32 (.advance 0 none))).map (fun cluster =>
      (cluster.persisted, cluster.executions.map fun execution =>
        (execution.turnId, execution.history.collector.hasContent))) =
      some (⟨true, some .completed, some 1, [(1, false)]⟩, [(1, true)]) := by decide
  obtain ⟨cluster, hrun, hcluster⟩ := Option.map_eq_some_iff.mp hseen
  obtain ⟨hpersisted, hexecutions⟩ := Prod.mk.inj hcluster
  obtain ⟨execution, hsingle, hexecution⟩ := List.map_eq_singleton_iff.mp hexecutions
  obtain ⟨hturn, hcontent⟩ := Prod.mk.inj hexecution
  have hmember : cluster.executions[0]? = some execution := by
    rw [hsingle]
    rfl
  obtain ⟨row, hrow, hstatus⟩ : ∃ row, cluster.world.turns 1 = some row ∧ row.status = .completed :=
    Option.map_eq_some_iff.mp (congrArg Persisted.status hpersisted)
  have hagrees := final_persist_agrees (reach_of_run hrun hallowed) hmember hturn hcontent hrow
    (by rw [hstatus]; rfl)
  exact ⟨cluster, hrun, hpersisted, row, hrow, hagrees.2.1.mpr hstatus⟩

/-- The XADD of the done frame fails after the final persist: the turn is FAILED, and has its final
message and its entry. -/
theorem final_persist_abandoned :
    (executedRun (List.replicate 22 (.advance 0 none) ++
      .advance 0 (some (.redisError "unreachable")) :: List.replicate 9 (.advance 0 none))).map
        (fun cluster => (cluster.persisted, cluster.executions.map fun execution =>
          execution.program.ended)) =
      some (⟨true, some .failed, some 1, [(1, false)]⟩, [true]) := by
  decide

end CodexServer
