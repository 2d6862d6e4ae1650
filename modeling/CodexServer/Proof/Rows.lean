import CodexServer.Cluster
import CodexServer.TurnService

/-!
# The rows of the cluster

What an operation does to a row is a statement of the turn service or the insertion of the row. From
this follows how a row may change over any number of steps: a terminal row keeps its outcome, a
marked row its Codex ids, and the heartbeat only grows.
-/

open Transition

namespace CodexServer

/-- The statement an operation issues, and on which row. -/
def World.statement (world : World) : Op → Option (Nat × TurnUpdate)
  | .markRunning turnId threadId codexTurnId =>
      some (turnId, .markRunning threadId codexTurnId world.now)
  | .updateLastEvent turnId eventId => some (turnId, .updateLastEvent eventId)
  | .heartbeat turnId => some (turnId, .heartbeat world.now)
  | .finalizeOnce turnId status errorCode errorDetail =>
      some (turnId, .finalizeOnce status errorCode errorDetail world.now)
  | .persistFinal turnId _ _ => some (turnId, .attachAssistantMessage (world.lastMessageId + 1))
  | _ => none

/-- What an operation may do to a row. -/
inductive RowStep (world : World) (op : Op) (turnId : Nat) :
    Option TurnRow → Option TurnRow → Prop
  | unchanged (row : Option TurnRow) : RowStep world op turnId row row
  | updated {before after : TurnRow} (statement : TurnUpdate)
      (hstatement : world.statement op = some (turnId, statement))
      (happly : statement.apply before = some after) :
      RowStep world op turnId (some before) (some after)
  | created (before : Option TurnRow) (payload : TurnCreate) (hop : op = .createTurn payload)
      (huser : world.users payload.userId = true) (hturn : turnId = world.lastTurnId + 1) :
      RowStep world op turnId before
        (some (TurnRow.starting turnId payload world.now).setStreamKey)

section

variable {world : World} {self turnId : Nat} {lost : Bool} {op : Op}

theorem updateTurn_turns (change : TurnRow → Option TurnRow) (other : Nat) :
    (world.updateTurn turnId change).2.turns other =
      if other = turnId then ((world.turns turnId).bind change).orElse fun _ => world.turns turnId
      else world.turns other := by
  unfold World.updateTurn
  split
  · rename_i row hrow
    by_cases hother : other = turnId
    · subst hother
      simp [hrow]
    · simp [hother]
  · rename_i hrow
    by_cases hother : other = turnId
    · subst hother
      simp [hrow]
    · simp [hother]

/-- An update of one row, as a step of any row. -/
theorem updateTurn_rowStep {target : Nat} (statement : TurnUpdate)
    (hstatement : world.statement op = some (target, statement)) {stored : World}
    (hstored : stored.turns = world.turns) :
    RowStep world op turnId (world.turns turnId)
      ((stored.updateTurn target statement.apply).2.turns turnId) := by
  rw [updateTurn_turns, hstored]
  split
  · rename_i hturn
    subst hturn
    cases hrow : world.turns turnId with
    | none => exact .unchanged none
    | some row =>
        cases happly : statement.apply row with
        | none =>
            simp only [Option.bind_some, happly]
            exact .unchanged (some row)
        | some after =>
            simp only [Option.bind_some, happly]
            exact .updated statement hstatement happly
  · exact .unchanged _

theorem createTurn_rowStep (payload : TurnCreate) :
    RowStep world (.createTurn payload) turnId (world.turns turnId)
      ((world.createTurn self payload).2.turns turnId) := by
  unfold World.createTurn
  split
  · exact .unchanged _
  · rename_i hfree
    simp only [not_or, Bool.not_eq_true, Bool.not_eq_false'] at hfree
    by_cases hturn : turnId = world.lastTurnId + 1
    · simp only [hturn, Function.update_self]
      exact .created _ payload rfl hfree.2 rfl
    · simp only [Function.update_of_ne hturn]
      exact .unchanged _

/-- The command an operation sends to `turn:lease:*`. -/
def Op.leaseCommand : Op → Option (StoreCommand Nat Nat)
  | .setLeaseNx turnId holder => some (.setNx turnId holder)
  | .refreshLease turnId holder => some (.touchIfEq turnId holder)
  | .releaseLease turnId holder => some (.delIfEq turnId holder)
  | _ => none

/-- The command an operation sends to `turn:active:*`. -/
def Op.activeCommand : Op → Option (StoreCommand Nat Nat)
  | .setActiveNx chatId turnId => some (.setNx chatId turnId)
  | .setActiveIfEq chatId turnId => some (.touchIfEq chatId turnId)
  | .delActiveIfEq chatId turnId => some (.delIfEq chatId turnId)
  | _ => none

/-- What an operation may do to the shared state; what it does to a row is said by `RowStep`. -/
inductive World.Effect (world : World) (self : Nat) (op : Op) : World → Prop
  | silent : Effect world self op world
  | updated (turns : Nat → Option TurnRow) (hstatement : (world.statement op).isSome) :
      Effect world self op { world with turns := turns }
  | created (payload : TurnCreate) (hop : op = .createTurn payload)
      (turns : Nat → Option TurnRow) :
      Effect world self op { world with
        lastTurnId := world.lastTurnId + 1
        turns := turns
        submitter := Function.update world.submitter (world.lastTurnId + 1) (some self) }
  | partialStored (turnId : Nat) (draft : MessageDraft) (emitJournal : Bool)
      (hop : op = .persistPartial turnId draft emitJournal) (journal : List JournalEntry)
      (hjournal : ∀ entry ∈ journal, entry ∈ world.journal ∨ entry.kind = .turnFailed)
      (hkept : ∀ entry ∈ world.journal, entry ∈ journal) :
      Effect world self op { (world.appendMessage turnId draft).2 with journal := journal }
  | finalStored (turnId : Nat) (draft : MessageDraft) (partialIds : List Nat)
      (hop : op = .persistFinal turnId draft partialIds) (turns : Nat → Option TurnRow) :
      Effect world self op
        ({ (world.appendMessage turnId draft).2 with turns := turns }.deleteMessages partialIds
          |>.emit turnId draft.chatId .turnCompleted)
  | emitted (turnId chatId : Nat) (kind : EventKind) (hop : op = .emitEvent turnId chatId kind) :
      Effect world self op (world.emit turnId chatId kind)
  | enqueued (turnId : Nat) (hop : op = .enqueue turnId) :
      Effect world self op { world with
        enqueued := Function.update world.enqueued turnId true
        queue := Function.update world.queue turnId true }
  | locked (command : StoreCommand Nat Nat) (hcommand : op.activeCommand = some command) :
      Effect world self op { world with
        active := (command.run world.active (world.now + lockTtl) self).2 }
  | leased (command : StoreCommand Nat Nat) (hcommand : op.leaseCommand = some command)
      (acquisitions : Nat → Nat)
      (hgrown : ∀ turnId, world.acquisitions turnId ≤ acquisitions turnId)
      (htaken : ∀ turnId, world.lease turnId = none →
        (command.run world.lease (world.now + lockTtl) self).2 turnId = none ∨
          acquisitions turnId = world.acquisitions turnId + 1) :
      Effect world self op { world with
        lease := (command.run world.lease (world.now + lockTtl) self).2
        acquisitions := acquisitions }
  | registered (holder : Nat) (turnIds : List Nat)
      (hop : ∃ turnId, (op = .addActiveLease turnId holder ∧
          turnIds = turnId :: (world.activeLeases holder).erase turnId) ∨
        (op = .discardActiveLease turnId holder ∧
          turnIds = (world.activeLeases holder).erase turnId)) :
      Effect world self op { world with
        activeLeases := Function.update world.activeLeases holder turnIds }
  | appended (turnId : Nat) (event : ChatEvent) (hop : op = .xadd turnId event) :
      Effect world self op { world with
        streams := Function.update world.streams turnId (world.streams turnId ++ [event]) }
  | steered (steerCount : Nat → Nat) (steerNote : Nat → Option String) :
      Effect world self op { world with steerCount := steerCount, steerNote := steerNote }

theorem updateTurn_effect {target : Nat} (change : TurnRow → Option TurnRow)
    (hstatement : (world.statement op).isSome) :
    world.Effect self op (world.updateTurn target change).2 := by
  unfold World.updateTurn
  split
  · exact .updated _ hstatement
  · exact .silent

/-- An update of a row changes nothing but rows. -/
theorem updateTurn_world (target : Nat) (change : TurnRow → Option TurnRow) :
    (world.updateTurn target change).2 =
      { world with turns := (world.updateTurn target change).2.turns } := by
  unfold World.updateTurn
  split <;> rfl

theorem acquireLease_world (turnId holder : Nat) :
    (world.acquireLease self turnId holder).2 = { world with
      lease := (world.lease.setNx turnId holder (world.now + lockTtl) self).2
      acquisitions :=
        if (world.lease.setNx turnId holder (world.now + lockTtl) self).1 then
          Function.update world.acquisitions turnId (world.acquisitions turnId + 1)
        else world.acquisitions } := by
  by_cases hacquired : (world.lease.setNx turnId holder (world.now + lockTtl) self).1 = true
  · simp [World.acquireLease, World.setLease, hacquired]
  · simp [World.acquireLease, World.setLease, hacquired]

theorem acquireLease_effect (turnId holder : Nat) :
    world.Effect self (.setLeaseNx turnId holder) (world.acquireLease self turnId holder).2 := by
  rw [acquireLease_world]
  refine .leased (.setNx turnId holder) rfl _ (fun other => ?_) fun other hfree => ?_
  · split
    · rw [Function.update_apply]
      split <;> grind
    · exact le_rfl
  · rcases StoreCommand.run_of_none hfree with hnone | ⟨⟨value, hcommand⟩, htaken⟩
    · exact .inl hnone
    · cases hcommand
      have hacquired : (world.lease.setNx turnId holder (world.now + lockTtl) self).1 = true := htaken
      simp only [hacquired, if_true, Function.update_self, or_true]

/-- **Inversion of an operation.** -/
theorem perform_effect (world : World) (self : Nat) (lost : Bool) (op : Op) :
    world.Effect self op (world.perform self lost op).2 := by
  cases op with
  | markRunning | updateLastEvent | heartbeat | finalizeOnce =>
      exact updateTurn_effect _ rfl
  | persistPartial turnId draft emitJournal =>
      cases emitJournal with
      | true =>
          refine .partialStored turnId draft true rfl _ (fun entry hentry => ?_) fun entry hentry => ?_
          · rcases List.mem_append.mp hentry with hold | hnew
            · exact .inl hold
            · exact .inr (by rw [List.mem_singleton.mp hnew])
          · exact List.mem_append_left _ hentry
      | false => exact .partialStored turnId draft false rfl _ (fun _ h => .inl h) fun _ h => h
  | persistFinal turnId draft partialIds => 
      simp only [World.perform, World.persistFinal]
      rw [updateTurn_world]
      exact .finalStored turnId draft partialIds rfl _
  | createTurn payload =>
      simp only [World.perform, World.createTurn]
      split
      · exact .silent
      · exact .created payload rfl _
  | enqueue turnId => exact .enqueued turnId rfl
  | setActiveNx chatId turnId => exact .locked (.setNx chatId turnId) rfl
  | setActiveIfEq chatId turnId => exact .locked (.touchIfEq chatId turnId) rfl
  | delActiveIfEq chatId turnId => exact .locked (.delIfEq chatId turnId) rfl
  | setLeaseNx turnId holder => exact acquireLease_effect turnId holder
  | refreshLease turnId holder =>
      exact .leased (.touchIfEq turnId holder) rfl world.acquisitions (fun _ => le_rfl)
        fun other hfree => (StoreCommand.run_of_none hfree).imp id nofun
  | releaseLease turnId holder =>
      exact .leased (.delIfEq turnId holder) rfl world.acquisitions (fun _ => le_rfl)
        fun other hfree => (StoreCommand.run_of_none hfree).imp id nofun
  | addActiveLease turnId holder => exact .registered holder _ ⟨turnId, .inl ⟨rfl, rfl⟩⟩
  | discardActiveLease turnId holder => exact .registered holder _ ⟨turnId, .inr ⟨rfl, rfl⟩⟩
  | emitEvent turnId chatId kind => exact .emitted turnId chatId kind rfl
  | xadd turnId event => exact .appended turnId event rfl
  | bumpSteer => exact .steered _ world.steerNote
  | noteSteer => exact .steered world.steerCount _
  | consumeSteer chatId codexTurnId =>
      simp only [World.perform, World.consumeSteer]
      split
      · exact .steered world.steerCount _
      · exact .silent
  | _ => exact .silent

/-- **The rows after an operation.** -/
theorem perform_row : RowStep world op turnId (world.turns turnId)
    ((world.perform self lost op).2.turns turnId) := by
  cases op with
  | markRunning target threadId codexTurnId =>
      exact updateTurn_rowStep (.markRunning threadId codexTurnId world.now) rfl rfl
  | updateLastEvent target eventId =>
      exact updateTurn_rowStep (.updateLastEvent eventId) rfl rfl
  | heartbeat target => exact updateTurn_rowStep (.heartbeat world.now) rfl rfl
  | finalizeOnce target status errorCode errorDetail =>
      exact updateTurn_rowStep (.finalizeOnce status errorCode errorDetail world.now) rfl rfl
  | persistFinal target draft partialIds =>
      have hstored : (world.appendMessage target draft).2.turns = world.turns := rfl
      exact updateTurn_rowStep (.attachAssistantMessage (world.lastMessageId + 1)) rfl hstored
  | createTurn payload => exact createTurn_rowStep payload
  | persistPartial target draft emitJournal =>
      simp only [World.perform, World.persistPartial]
      split <;> exact .unchanged _
  | setLeaseNx target holder =>
      simp only [World.perform, World.acquireLease]
      split <;> exact .unchanged _
  | consumeSteer chatId codexTurnId =>
      simp only [World.perform, World.consumeSteer]
      split <;> exact .unchanged _
  | _ => exact .unchanged _

end

/-! ### How a row may change -/

/-- Nothing in a later row contradicts an earlier one. -/
structure TurnRow.Leads (before after : TurnRow) : Prop where
  id : after.id = before.id
  chatId : after.chatId = before.chatId
  userId : after.userId = before.userId
  terminal : before.status.isTerminal → after.status = before.status
  marked : before.status ≠ .starting → after.status ≠ .starting ∧
    after.codexThreadId = before.codexThreadId ∧ after.codexTurnId = before.codexTurnId
  heartbeat : before.heartbeatAt ≤ after.heartbeatAt

theorem TurnRow.Leads.refl (row : TurnRow) : row.Leads row :=
  ⟨rfl, rfl, rfl, fun _ => rfl, fun h => ⟨h, rfl, rfl⟩, le_rfl⟩

theorem TurnRow.Leads.trans {first second third : TurnRow} (hfirst : first.Leads second)
    (hsecond : second.Leads third) : first.Leads third where
  id := hsecond.id.trans hfirst.id
  chatId := hsecond.chatId.trans hfirst.chatId
  userId := hsecond.userId.trans hfirst.userId
  terminal hterminal := by
    have hkept := hfirst.terminal hterminal
    exact (hsecond.terminal (hkept ▸ hterminal)).trans hkept
  marked hmarked := by
    obtain ⟨hstatus, hthread, hturn⟩ := hfirst.marked hmarked
    obtain ⟨hstatus', hthread', hturn'⟩ := hsecond.marked hstatus
    exact ⟨hstatus', hthread'.trans hthread, hturn'.trans hturn⟩
  heartbeat := hfirst.heartbeat.trans hsecond.heartbeat

/-- Every statement of the turn service leads from a row to a later one. -/
theorem TurnUpdate.apply_leads {world : World} {op : Op} {turnId : Nat} {statement : TurnUpdate}
    {before after : TurnRow} (hstatement : world.statement op = some (turnId, statement))
    (happly : statement.apply before = some after) (hnow : before.heartbeatAt ≤ world.now) :
    before.Leads after ∧ after.heartbeatAt ≤ world.now := by
  cases op with
  | markRunning target threadId codexTurnId =>
      cases hstatement
      obtain ⟨hstarting, hafter⟩ := Option.ite_none_right_eq_some.mp happly
      cases hafter
      refine ⟨⟨rfl, rfl, rfl, fun hterminal => ?_, fun hmarked => ?_, hnow⟩, le_rfl⟩
      · simp [hstarting, TurnStatus.isTerminal] at hterminal
      · exact absurd hstarting hmarked
  | updateLastEvent target eventId =>
      cases hstatement
      cases happly
      exact ⟨⟨rfl, rfl, rfl, fun _ => rfl, fun h => ⟨h, rfl, rfl⟩, le_rfl⟩, hnow⟩
  | heartbeat target =>
      cases hstatement
      obtain ⟨_, hafter⟩ := Option.ite_none_right_eq_some.mp happly
      cases hafter
      exact ⟨⟨rfl, rfl, rfl, fun _ => rfl, fun h => ⟨h, rfl, rfl⟩, hnow⟩, le_rfl⟩
  | finalizeOnce target status errorCode errorDetail =>
      cases hstatement
      obtain ⟨hactive, hafter⟩ := Option.ite_none_right_eq_some.mp happly
      cases hafter
      refine ⟨⟨rfl, rfl, rfl, fun hterminal => ?_, fun _ => ⟨?_, rfl, rfl⟩, le_rfl⟩, hnow⟩
      · simp [hterminal] at hactive
      · intro hstarting
        have hterminal := status.property
        simp only at hstarting
        simp [hstarting, TurnStatus.isTerminal] at hterminal
  | persistFinal target draft partialIds =>
      cases hstatement
      cases happly
      exact ⟨⟨rfl, rfl, rfl, fun _ => rfl, fun h => ⟨h, rfl, rfl⟩, le_rfl⟩, hnow⟩
  | _ => cases hstatement

end CodexServer
