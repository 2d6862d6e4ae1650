import CodexServer.TurnService

/-!
# The lifecycle of a turn row

A committed row is the replay of the statements that changed it. The replay is read off once, as the
marks and the finalisations in the row's history; the lifecycle of every row then follows from the
trace rule and the index rule of the versioned table.
-/

open Versioned

namespace CodexServer

namespace TurnEffect

/-- The status a statement writes. -/
def status : TurnEffect → Option TurnStatus
  | created _ _ => some .starting
  | updated (.markRunning _ _ _) => some .running
  | updated (.finalizeOnce status _ _ _) => some status
  | updated _ => none

/-- The Codex ids of a `mark_running` that answered `True`. -/
def mark : TurnEffect → Option (String × String)
  | updated (.markRunning threadId codexTurnId _) => some (threadId, codexTurnId)
  | _ => none

end TurnEffect

/-- What a `finalize_once` that answered `True` wrote. -/
structure Finalization where
  status : TerminalStatus
  errorCode : Option String
  errorDetail : Option String
  completedAt : Nat

def TurnEffect.finalization : TurnEffect → Option Finalization
  | updated (.finalizeOnce status errorCode errorDetail now) =>
      some ⟨status, errorCode, errorDetail, now⟩
  | _ => none

/-- The statuses written into a row, in order. -/
def statusTrail (history : List TurnEffect) : List TurnStatus := history.filterMap TurnEffect.status

def marks (history : List TurnEffect) : List (String × String) :=
  history.filterMap TurnEffect.mark

def finalizations (history : List TurnEffect) : List Finalization :=
  history.filterMap TurnEffect.finalization

theorem filterMap_snoc {α β : Type} (f : α → Option β) (xs : List α) (x : α) :
    (xs ++ [x]).filterMap f = xs.filterMap f ++ (f x).toList := by
  cases hx : f x <;> simp [hx]

@[simp]
theorem statusTrail_snoc (history : List TurnEffect) (effect : TurnEffect) :
    statusTrail (history ++ [effect]) = statusTrail history ++ effect.status.toList :=
  filterMap_snoc _ _ _

@[simp]
theorem marks_snoc (history : List TurnEffect) (effect : TurnEffect) :
    marks (history ++ [effect]) = marks history ++ effect.mark.toList :=
  filterMap_snoc _ _ _

@[simp]
theorem finalizations_snoc (history : List TurnEffect) (effect : TurnEffect) :
    finalizations (history ++ [effect]) = finalizations history ++ effect.finalization.toList :=
  filterMap_snoc _ _ _

/-- The columns a terminal row keeps for good. -/
structure TurnOutcome where
  status : TurnStatus
  errorCode : Option String
  errorDetail : Option String
  completedAt : Option Nat
  codexThreadId : Option String
  codexTurnId : Option String

def TurnRow.outcome (row : TurnRow) : TurnOutcome where
  status := row.status
  errorCode := row.errorCode
  errorDetail := row.errorDetail
  completedAt := row.completedAt
  codexThreadId := row.codexThreadId
  codexTurnId := row.codexTurnId

/-! ### Replaying a history -/

inductive Replays : List TurnEffect → TurnRow → Prop
  | created (turnId : Nat) (insert : TurnInsert) :
      Replays [.created turnId insert] (TurnRow.starting turnId insert.payload insert.now)
  | updated {effects : List TurnEffect} {before row : TurnRow} (statement : TurnUpdate)
      (hbefore : Replays effects before) (hrow : statement.apply before = some row) :
      Replays (effects ++ [.updated statement]) row

/-- The outcome of a row that was marked as `mark` says and finalised as `final` says. -/
def outcomeOf (mark : Option (String × String)) (final : Option Finalization) : TurnOutcome where
  status := match final, mark with
    | some final, _ => final.status
    | none, some _ => .running
    | none, none => .starting
  errorCode := final.bind Finalization.errorCode
  errorDetail := final.bind Finalization.errorDetail
  completedAt := final.map Finalization.completedAt
  codexThreadId := mark.map Prod.fst
  codexTurnId := mark.map Prod.snd

/-- A history with at most one mark and at most one finalisation, in this order. -/
structure Marked (history : List TurnEffect) (mark : Option (String × String))
    (final : Option Finalization) : Prop where
  marks_eq : marks history = mark.toList
  finalizations_eq : finalizations history = final.toList
  trail_eq : statusTrail history =
    .starting :: (mark.toList.map fun _ => .running) ++ final.toList.map fun f => f.status.val

theorem outcomeOf_isActive {mark : Option (String × String)} {final : Option Finalization}
    (h : (outcomeOf mark final).status.isTerminal = false) : final = none := by
  cases final with
  | none => rfl
  | some final => simp [outcomeOf, final.status.property] at h

/-- **What a replay is.** Whatever else was written, the outcome columns come from the one mark and
the one finalisation of the history. -/
theorem Replays.marked {history : List TurnEffect} {row : TurnRow} (h : Replays history row) :
    ∃ mark final, Marked history mark final ∧ row.outcome = outcomeOf mark final := by
  induction h with
  | created turnId insert =>
      exact ⟨none, none, ⟨rfl, rfl, rfl⟩, rfl⟩
  | @updated effects before row statement _ hrow ih =>
      obtain ⟨mark, final, ⟨hmarks, hfinals, htrail⟩, houtcome⟩ := ih
      have hkept : row.outcome = before.outcome → TurnEffect.mark (.updated statement) = none →
          TurnEffect.finalization (.updated statement) = none →
          TurnEffect.status (.updated statement) = none →
          ∃ mark final, Marked (effects ++ [.updated statement]) mark final ∧
            row.outcome = outcomeOf mark final := by
        intro hsame hmark hfinal hstatus
        exact ⟨mark, final, ⟨by simp [hmark, hmarks], by simp [hfinal, hfinals],
          by simp [hstatus, htrail]⟩, hsame.trans houtcome⟩
      have hstatus : before.status = (outcomeOf mark final).status :=
        congrArg TurnOutcome.status houtcome
      cases statement with
      | setStreamKey =>
          cases hrow
          exact hkept rfl rfl rfl rfl
      | attachAssistantMessage messageId =>
          cases hrow
          exact hkept rfl rfl rfl rfl
      | updateLastEvent eventId =>
          cases hrow
          exact hkept rfl rfl rfl rfl
      | heartbeat now =>
          simp only [TurnUpdate.apply, TurnRow.heartbeat, Option.ite_none_right_eq_some,
            Option.some.injEq] at hrow
          obtain ⟨-, rfl⟩ := hrow
          exact hkept rfl rfl rfl rfl
      | markRunning threadId codexTurnId now =>
          simp only [TurnUpdate.apply, TurnRow.markRunning, Option.ite_none_right_eq_some,
            Option.some.injEq] at hrow
          obtain ⟨hstarting, rfl⟩ := hrow
          obtain rfl : final = none := outcomeOf_isActive (by rw [← hstatus, hstarting]; rfl)
          obtain rfl : mark = none := by
            cases mark with
            | none => rfl
            | some mark => simp [outcomeOf, hstarting] at hstatus
          simp only [TurnOutcome.mk.injEq, TurnRow.outcome, outcomeOf] at houtcome
          refine ⟨some (threadId, codexTurnId), none, ⟨?_, ?_, ?_⟩, ?_⟩
          · simp [hmarks, TurnEffect.mark]
          · simp [hfinals, TurnEffect.finalization]
          · simp [htrail, TurnEffect.status]
          · simp [TurnRow.outcome, outcomeOf, houtcome]
      | finalizeOnce status errorCode errorDetail now =>
          simp only [TurnUpdate.apply, TurnRow.finalizeOnce, Option.ite_none_right_eq_some,
            Option.some.injEq, TurnStatus.isActive_eq_not_isTerminal, Bool.not_eq_true'] at hrow
          obtain ⟨hactive, rfl⟩ := hrow
          obtain rfl : final = none := outcomeOf_isActive (hstatus ▸ hactive)
          simp only [TurnOutcome.mk.injEq, TurnRow.outcome, outcomeOf] at houtcome
          refine ⟨mark, some ⟨status, errorCode, errorDetail, now⟩, ⟨?_, ?_, ?_⟩, ?_⟩
          · simp [hmarks, TurnEffect.mark]
          · simp [hfinals, TurnEffect.finalization]
          · simp [htrail, TurnEffect.status]
          · simp [TurnRow.outcome, outcomeOf, houtcome]

/-! ### What follows for one history -/

variable {Session : Type} [DecidableEq Session]

/-- The runs of the table: statements of any sessions in any order, commits and rollbacks. -/
abbrev TurnTable.Reaches (table later : TurnTable Session) : Prop :=
  Transition.Reach turns.step (fun _ _ => True) table later

/-! ### The service's methods are such statements -/

namespace TurnService

variable {session : Session} {turnId : Nat} {table next : TurnTable Session} {answer : Bool}

theorem execUpdate_reaches {statement : TurnUpdate}
    (h : turns.execUpdate table session turnId statement = some (answer, next)) :
    table.Reaches next :=
  .single (show True from trivial)
    (show turns.step table (.update session turnId statement) = some next by simp [Schema.step, h])

theorem tryCreateStarting_reaches {payload : TurnCreate} {now : Nat} {created : Option TurnRow}
    (h : tryCreateStarting session payload now table = some (created, next)) :
    table.Reaches next := by
  unfold tryCreateStarting createStarting at h
  cases hinsert : turns.execInsert table session ⟨payload, now⟩ with
  | none => simp [hinsert] at h
  | some result =>
      obtain ⟨key, inserted⟩ := result
      have hfirst : table.Reaches inserted :=
        .single (show True from trivial)
          (show turns.step table (.insert session ⟨payload, now⟩) = some inserted by
            simp [Schema.step, hinsert])
      cases key with
      | none =>
          simp only [hinsert, Option.some.injEq, Prod.mk.injEq] at h
          obtain ⟨-, rfl⟩ := h
          exact .tail (.rollback session) hfirst trivial rfl
      | some key =>
          cases hupdate : turns.execUpdate inserted session key .setStreamKey with
          | none => simp [hinsert, hupdate] at h
          | some result =>
              obtain ⟨changed, filled⟩ := result
              cases hview : filled.view session key with
              | none => simp [hinsert, hupdate, hview] at h
              | some row =>
                  simp only [hinsert, hupdate, hview, Option.map_some, Option.some.injEq,
                    Prod.mk.injEq] at h
                  obtain ⟨-, rfl⟩ := h
                  exact hfirst.trans (execUpdate_reaches hupdate)

/-- What `try_create_starting` does: nothing where the chat has an active turn, and the row with its
stream key where it has none. -/
theorem tryCreateStarting_cases {payload : TurnCreate} {now : Nat} {created : Option TurnRow}
    (h : tryCreateStarting session payload now table = some (created, next)) :
    (List.range table.nextId).any (turns.conflicts table session payload.chatId) =
        created.isNone ∧
      ((created = none ∧ ∃ nextId, table.nextId ≤ nextId ∧
          next = { table.rollback session with nextId := nextId }) ∨
        (created = some (TurnRow.starting table.nextId payload now).setStreamKey ∧
          next = { table.write table.nextId
            ⟨session, (TurnRow.starting table.nextId payload now).setStreamKey,
              [.created table.nextId ⟨payload, now⟩, .updated .setStreamKey]⟩ with
            nextId := table.nextId + 1 })) := by
  unfold tryCreateStarting createStarting at h
  cases hinsert : turns.execInsert table session ⟨payload, now⟩ with
  | none => simp [hinsert] at h
  | some inserted =>
      obtain ⟨key, answered⟩ := inserted
      have hconflicts := turns.execInsert_conflicts hinsert
      rcases turns.execInsert_cases hinsert with ⟨rfl, rfl⟩ | ⟨rfl, _, rfl⟩
      · simp only [hinsert, Option.some.injEq, Prod.mk.injEq] at h
        obtain ⟨rfl, rfl⟩ := h
        refine ⟨hconflicts, .inl ⟨rfl, table.nextId + 1, Nat.le_succ _, ?_⟩⟩
        simp [Table.rollback, Option.filter_filter]
      · rw [hinsert] at h
        simp only [turns, Schema.execUpdate, Table.write, TurnUpdate.apply, Function.update_self,
          if_true, Option.map_some, Table.view, Option.some.injEq, Prod.mk.injEq] at h
        obtain ⟨rfl, rfl⟩ := h
        refine ⟨hconflicts, .inr ⟨rfl, ?_⟩⟩
        simp [Table.write]

end TurnService

/-! ### Every schedule -/

theorem reaches_traced {table : TurnTable Session} (hreach : TurnTable.Reaches .empty table) :
    Schema.Traced Replays table :=
  Schema.Reach.traced (fun insert turnId => .created turnId insert)
    (fun statement effects before row effect hreplays hupdate => by
      obtain ⟨next, hnext, heq⟩ := Option.map_eq_some_iff.mp hupdate
      cases heq
      exact .updated statement hreplays hnext)
    hreach

/-- No statement brings a row back to life or moves it to another chat. -/
theorem TurnUpdate.apply_stays {statement : TurnUpdate} {before row : TurnRow}
    (h : statement.apply before = some row) :
    (row.status.isActive = true → before.status.isActive = true) ∧ row.chatId = before.chatId := by
  cases statement with
  | setStreamKey | attachAssistantMessage | updateLastEvent =>
      cases h
      exact ⟨id, rfl⟩
  | heartbeat now =>
      simp only [apply, TurnRow.heartbeat, Option.ite_none_right_eq_some, Option.some.injEq] at h
      obtain ⟨hactive, rfl⟩ := h
      exact ⟨id, rfl⟩
  | markRunning threadId codexTurnId now =>
      simp only [apply, TurnRow.markRunning, Option.ite_none_right_eq_some, Option.some.injEq] at h
      obtain ⟨hstarting, rfl⟩ := h
      exact ⟨fun _ => by rw [hstarting]; rfl, rfl⟩
  | finalizeOnce status errorCode errorDetail now =>
      simp only [apply, TurnRow.finalizeOnce, Option.ite_none_right_eq_some,
        Option.some.injEq] at h
      obtain ⟨hactive, rfl⟩ := h
      exact ⟨fun _ => hactive, rfl⟩

theorem reaches_exclusive {table : TurnTable Session} (hreach : TurnTable.Reaches .empty table) :
    Schema.Exclusive turns table :=
  Schema.Reach.exclusive
    (fun statement before row effect hupdate => by
      obtain ⟨next, hnext, heq⟩ := Option.map_eq_some_iff.mp hupdate
      cases heq
      exact TurnUpdate.apply_stays hnext)
    (fun hreach _ hkey => (reaches_traced hreach).fresh hkey) hreach

end CodexServer
