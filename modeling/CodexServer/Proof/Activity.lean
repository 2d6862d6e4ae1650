import CodexServer.Activity
import CodexServer.Proof.TurnLifecycle

/-!
# What is published about turns

Each listener stands for one transition of its session that is not committed yet, until a rollback
makes one of nothing. The published events are those of the committed transitions just as long as no
commit fires such a listener.
-/

open Versioned

namespace CodexServer.Activity

open Transition (run RunAllowed)

variable {Session : Type} [DecidableEq Session] {sessions next : Sessions Session}
  {session : Session} {table after : TurnTable Session}

/-! ### The statements -/

theorem tryCreateStarting_notices {payload : TurnCreate} {now : Nat} {answer : Option TurnRow}
    (h : TurnService.tryCreateStarting session payload now table = some (answer, after)) :
    (answer = none ∧ ∃ nextId, table.nextId ≤ nextId ∧
      after = { table.rollback session with nextId := nextId }) ∨
    ∃ row effects, answer = some row ∧ row.id = table.nextId ∧
      effects.filterMap (notice table.nextId row) =
        [.turnStarted row.userId row.chatId row.id] ∧
      after = { table.write table.nextId ⟨session, row, effects⟩ with
        nextId := table.nextId + 1 } := by
  rcases (TurnService.tryCreateStarting_cases h).2 with hnone | ⟨rfl, rfl⟩
  · exact .inl hnone
  · exact .inr ⟨_, _, rfl, rfl, rfl, rfl⟩

theorem notice_congr {row changed : TurnRow} (huser : changed.userId = row.userId)
    (hchat : changed.chatId = row.chatId) (turnId : Nat) :
    notice turnId changed = notice turnId row := by
  funext effect
  cases effect with
  | created => simp [notice, huser, hchat]
  | updated update => cases update <;> simp [notice, huser, hchat]

/-- No statement gives a turn to somebody else. -/
theorem apply_owner {update : TurnUpdate} {row changed : TurnRow}
    (h : update.apply row = some changed) :
    changed.userId = row.userId ∧ changed.chatId = row.chatId := by
  cases update with
  | setStreamKey | attachAssistantMessage | updateLastEvent =>
      cases h
      exact ⟨rfl, rfl⟩
  | markRunning =>
      simp only [TurnUpdate.apply, TurnRow.markRunning] at h
      split at h <;> cases h
      exact ⟨rfl, rfl⟩
  | heartbeat =>
      simp only [TurnUpdate.apply, TurnRow.heartbeat] at h
      split at h <;> cases h
      exact ⟨rfl, rfl⟩
  | finalizeOnce =>
      simp only [TurnUpdate.apply, TurnRow.finalizeOnce] at h
      split at h <;> cases h
      exact ⟨rfl, rfl⟩

theorem update_eq_some {update : TurnUpdate} {row changed : TurnRow} {effect : TurnEffect}
    (h : turns.update update row = some (changed, effect)) :
    update.apply row = some changed ∧ effect = .updated update := by
  obtain ⟨found, hfound, hpair⟩ := Option.map_eq_some_iff.mp h
  cases hpair
  exact ⟨hfound, rfl⟩

/-- A statement that changes a row adds its notice to what its session owes there. -/
structure Adds (table after : TurnTable Session) (session : Session) (turnId : Nat)
    (news : List ActivityEvent) : Prop where
  noticed : Noticed notice after
  due : ∀ key, after.due notice key = table.due notice key
  owed : after.owed notice session turnId = table.owed notice session turnId ++ news
  others : ∀ tx key, ¬(tx = session ∧ key = turnId) →
    after.owed notice tx key = table.owed notice tx key

/-- Writing a version of a row that nobody else is writing. -/
theorem adds_write {row : TurnRow} {effects : List TurnEffect} {turnId nextId : Nat}
    {news : List ActivityEvent} (hnoticed : Noticed notice table)
    (hfree : ∀ draft, table.draft turnId = some draft → draft.owner = session)
    (hsame : ∀ committed, table.committed turnId = some committed →
      notice turnId row = notice turnId committed)
    (hnews : effects.filterMap (notice turnId row) = table.owed notice session turnId ++ news)
    (hkey : turnId < nextId) (hnext : table.nextId ≤ nextId) :
    Adds table { table.write turnId ⟨session, row, effects⟩ with nextId := nextId } session turnId
      news where
  noticed := hnoticed.write hsame hkey hnext
  due _ := rfl
  owed := by rw [owed_write_self, if_pos rfl, hnews]
  others tx key hne := by
    by_cases hkey : key = turnId
    · subst hkey
      have htx : session ≠ tx := fun heq => hne ⟨heq.symm, rfl⟩
      rw [owed_write_self, if_neg htx]
      unfold Table.owed
      cases hdraft : table.draft key with
      | none => rfl
      | some draft => simp [Option.filter, hfree draft hdraft, htx]
    · exact owed_write_of_ne hkey nextId

theorem execUpdate_adds {update : TurnUpdate} {turnId : Nat} {changed : Bool}
    (hnoticed : Noticed notice table)
    (h : turns.execUpdate table session turnId update = some (changed, after)) :
    (changed = false ∧ after = table) ∨
    ∃ row, changed = true ∧ after.view session turnId = some row ∧
      Adds table after session turnId (notice turnId row (.updated update)).toList := by
  have hbelow : (table.committed turnId).isSome ∨ (table.draft turnId).isSome →
      turnId < table.nextId := by
    intro hsome
    by_contra hge
    simp [hnoticed.fresh (not_lt.mp hge)] at hsome
  rcases turns.execUpdate_cases h with ⟨rfl, rfl⟩ |
    ⟨draft, row, effect, rfl, hdraft, howner, hupdate, rfl⟩ |
    ⟨before, row, effect, rfl, hdraft, hbefore, hupdate, rfl⟩
  · exact .inl ⟨rfl, rfl⟩
  · obtain ⟨happly, rfl⟩ := update_eq_some hupdate
    have hrow := notice_congr (apply_owner happly).1 (apply_owner happly).2 turnId
    refine .inr ⟨row, rfl, by simp [Table.view, Table.write], ?_⟩
    refine adds_write hnoticed (fun other hother => ?_) (fun committed hcommitted => ?_) ?_
      (hbelow (.inr (by simp [hdraft]))) le_rfl
    · cases hdraft.symm.trans hother
      exact howner
    · rw [hrow, hnoticed.draft hdraft hcommitted]
    · simp only [Table.owed, hdraft, Option.filter, howner, decide_true, if_true, Option.elim_some,
        List.filterMap_append, hrow]
      cases hnews : notice turnId draft.row (.updated update) <;> simp [hnews]
  · obtain ⟨happly, rfl⟩ := update_eq_some hupdate
    have hrow := notice_congr (apply_owner happly).1 (apply_owner happly).2 turnId
    refine .inr ⟨row, rfl, by simp [Table.view, Table.write], ?_⟩
    refine adds_write hnoticed (fun other hother => ?_) (fun committed hcommitted => ?_) ?_
      (hbelow (.inl (by simp [hbefore]))) le_rfl
    · cases hdraft.symm.trans hother
    · cases hbefore.symm.trans hcommitted
      exact hrow
    · simp only [Table.owed, hdraft, Option.filter, Option.elim_none, List.nil_append]
      cases hnews : notice turnId row (.updated update) <;> simp [hnews]

/-! ### Listeners -/

/-- A session has a listener for each notice it owes, and those left over. -/
structure Listening (sessions : Sessions Session) : Prop where
  noticed : Noticed notice sessions.table
  counted : ∀ session event, (sessions.listeners session).count event =
    (sessions.leftover session).count event +
      (sessions.table.owed notice session event.turnId).count event

/-- Everything that is committed has been published, once, and nothing else. -/
def Mirrors (sessions : Sessions Session) : Prop :=
  ∀ event, sessions.published.count event =
    (sessions.table.due notice event.turnId).count event

theorem listening_start : Listening ({} : Sessions Session) where
  noticed := noticed_empty
  counted _ _ := rfl

omit [DecidableEq Session] in
theorem mirrors_congr (hpublished : next.published = sessions.published)
    (hdue : ∀ key, next.table.due notice key = sessions.table.due notice key) :
    Mirrors next ↔ Mirrors sessions := by
  simp only [Mirrors, hpublished, hdue]

/-- A listener is registered together with what it stands for. -/
theorem Listening.publish {turnId : Nat} {event : ActivityEvent} (h : Listening sessions)
    (hevent : event.turnId = turnId)
    (hadds : Adds sessions.table after session turnId [event]) :
    Listening ({ sessions with table := after }.publishAfterCommit session event) where
  noticed := hadds.noticed
  counted other heard := by
    have hcounted := h.counted other heard
    simp only [Sessions.publishAfterCommit]
    by_cases hsession : other = session
    · subst hsession
      rw [Function.update_self, List.count_append]
      by_cases hkey : heard.turnId = turnId
      · rw [hkey, hadds.owed, List.count_append, ← hkey]
        omega
      · have hne : event ≠ heard := by
          rintro rfl
          exact hkey hevent
        rw [hadds.others other heard.turnId fun hboth => hkey hboth.2,
          List.count_singleton, if_neg (by simpa using hne)]
        omega
    · rw [Function.update_of_ne hsession, hadds.others other heard.turnId fun hboth =>
        hsession hboth.1]
      exact hcounted

theorem Listening.silent {turnId : Nat} (h : Listening sessions)
    (hadds : Adds sessions.table after session turnId []) :
    Listening { sessions with table := after } where
  noticed := hadds.noticed
  counted other heard := by
    have hsame : after.owed notice other heard.turnId =
        sessions.table.owed notice other heard.turnId := by
      by_cases hboth : other = session ∧ heard.turnId = turnId
      · obtain ⟨rfl, hkey⟩ := hboth
        rw [hkey, hadds.owed, List.append_nil]
      · exact hadds.others other heard.turnId hboth
    rw [hsame]
    exact h.counted other heard

theorem Listening.rolledBack (h : Listening sessions) {nextId : Nat}
    (hnext : sessions.table.nextId ≤ nextId) :
    Listening (sessions.rolledBack session
      { sessions.table.rollback session with nextId := nextId }) where
  noticed := h.noticed.rollback session hnext
  counted other heard := by
    simp only [Sessions.rolledBack]
    by_cases hsession : other = session
    · subst hsession
      rw [Function.update_self, owed_rollback_self, List.count_nil, Nat.add_zero]
    · rw [Function.update_of_ne hsession, owed_rollback_of_ne hsession]
      exact h.counted other heard

theorem Listening.commit (h : Listening sessions) (session : Session) :
    Listening (sessions.commit session) where
  noticed := h.noticed.commit session
  counted other heard := by
    simp only [Sessions.commit]
    by_cases hsession : other = session
    · subst hsession
      rw [Function.update_self, Function.update_self, owed_commit_self]
      rfl
    · rw [Function.update_of_ne hsession, Function.update_of_ne hsession,
        owed_commit_of_ne hsession]
      exact h.counted other heard

/-- **A commit** keeps what is published and what is committed together just if no listener is left
over from a transaction that was rolled back. -/
theorem mirrors_commit (h : Listening sessions) (hmirrors : Mirrors sessions) (session : Session) :
    Mirrors (sessions.commit session) ↔ sessions.leftover session = [] := by
  have hcounts : Mirrors (sessions.commit session) ↔
      ∀ event, (sessions.leftover session).count event = 0 := by
    refine forall_congr' fun event => ?_
    have hpublished : (sessions.commit session).published.count event =
        sessions.published.count event + (sessions.listeners session).count event :=
      List.count_append
    have hdue : ((sessions.commit session).table.due notice event.turnId).count event =
        (sessions.table.due notice event.turnId).count event +
          (sessions.table.owed notice session event.turnId).count event := by
      rw [← List.count_append, ← due_commit h.noticed]
      rfl
    have hlisteners := h.counted session event
    have hbefore := hmirrors event
    rw [hpublished, hdue]
    omega
  rw [hcounts]
  constructor
  · intro hzero
    refine List.eq_nil_iff_forall_not_mem.mpr fun event hmem => ?_
    exact absurd (hzero event) (List.count_pos_iff.mpr hmem).ne'
  · rintro hnil event
    rw [hnil, List.count_nil]

/-! ### Steps -/

/-- The session that commits has no listener left over from a transaction that was rolled back. -/
def Clean (sessions : Sessions Session) : Action Session → Prop
  | .commit session => sessions.leftover session = []
  | _ => True

/-- A step that is no commit. -/
theorem step_cases {action : Action Session} (h : Listening sessions)
    (hstep : step sessions action = some next) :
    (∃ session, action = .commit session ∧ next = sessions.commit session) ∨
      (Clean sessions action ∧ Listening next ∧ (Mirrors next ↔ Mirrors sessions)) := by
  cases action with
  | tryCreateStarting session payload now =>
      right
      simp only [step, Sessions.tryCreateStarting] at hstep
      split at hstep
      case h_3 => cases hstep
      case h_1 row after hcreate =>
          cases hstep
          rcases tryCreateStarting_notices hcreate with ⟨hnone, _⟩ |
            ⟨found, effects, hfound, hid, hnews, rfl⟩
          · cases hnone
          · cases hfound
            obtain ⟨hcommitted, hdraft⟩ := h.noticed.fresh (le_refl sessions.table.nextId)
            have hadds : Adds sessions.table _ session sessions.table.nextId
                [.turnStarted row.userId row.chatId row.id] :=
              adds_write h.noticed (fun draft hfree => by cases hdraft.symm.trans hfree)
                (fun committed hnone => by cases hcommitted.symm.trans hnone)
                (by rw [hnews, Table.owed, hdraft]; rfl) (Nat.lt_succ_self _) (Nat.le_succ _)
            exact ⟨trivial, h.publish hid hadds, mirrors_congr rfl hadds.due⟩
      case h_2 after hcreate =>
          cases hstep
          rcases tryCreateStarting_notices hcreate with ⟨_, nextId, hnext, rfl⟩ |
            ⟨found, _, hfound, _⟩
          · exact ⟨trivial, h.rolledBack hnext, mirrors_congr rfl fun _ => rfl⟩
          · cases hfound
  | finalizeOnce session turnId status errorCode errorDetail now =>
      right
      simp only [step, Sessions.finalizeOnce] at hstep
      split at hstep
      case h_1 after hfinalize =>
          simp only [TurnService.finalizeOnce] at hfinalize
          split at hfinalize
          case isFalse => cases hfinalize
          case isTrue hterminal =>
              obtain ⟨row, hrow, rfl⟩ := Option.map_eq_some_iff.mp hstep
              rcases execUpdate_adds h.noticed (Except.ok.inj hfinalize) with ⟨hfalse, _⟩ |
                ⟨found, _, hview, hadds⟩
              · cases hfalse
              · cases hrow.symm.trans hview
                exact ⟨trivial, h.publish rfl hadds, mirrors_congr rfl hadds.due⟩
      case h_2 after hfinalize =>
          cases hstep
          simp only [TurnService.finalizeOnce] at hfinalize
          split at hfinalize
          case isFalse => cases hfinalize
          case isTrue hterminal =>
              rcases execUpdate_adds h.noticed (Except.ok.inj hfinalize) with ⟨_, rfl⟩ |
                ⟨_, htrue, _⟩
              · exact ⟨trivial, ⟨h.noticed, h.counted⟩, Iff.rfl⟩
              · cases htrue
      case h_3 => cases hstep
      case h_4 =>
          cases hstep
          exact ⟨trivial, h, Iff.rfl⟩
  | statement session turnId update =>
      right
      simp only [step] at hstep
      split at hstep
      case isTrue => cases hstep
      case isFalse hother =>
          obtain ⟨⟨changed, after⟩, hexec, rfl⟩ := Option.map_eq_some_iff.mp hstep
          rcases execUpdate_adds h.noticed hexec with ⟨_, rfl⟩ | ⟨row, _, _, hadds⟩
          · exact ⟨trivial, ⟨h.noticed, h.counted⟩, Iff.rfl⟩
          · have hsilent : notice turnId row (.updated update) = none := by
              cases update with
              | finalizeOnce => exact absurd rfl hother
              | _ => rfl
            rw [hsilent] at hadds
            exact ⟨trivial, h.silent hadds, mirrors_congr rfl hadds.due⟩
  | commit session =>
      cases hstep
      exact .inl ⟨session, rfl, rfl⟩
  | rollback session =>
      cases hstep
      exact .inr ⟨trivial, h.rolledBack (le_refl sessions.table.nextId),
        mirrors_congr rfl fun _ => rfl⟩

theorem Listening.step {action : Action Session} (h : Listening sessions)
    (hstep : step sessions action = some next) : Listening next := by
  rcases step_cases h hstep with ⟨session, _, rfl⟩ | ⟨_, hnext, _⟩
  · exact h.commit session
  · exact hnext

/-- **Activity mirrors the commits.** In every state of a run the published events are those of the
committed transitions, each once, just if no session commits that has a listener left over from a
transaction that was rolled back. -/
theorem activity_mirrors_commits {actions : List (Action Session)} {sessions : Sessions Session}
    (hrun : run step {} actions = some sessions) :
    (∀ done middle, done <+: actions → run step ({} : Sessions Session) done = some middle →
        Mirrors middle) ↔
      RunAllowed step Clean ({} : Sessions Session) actions := by
  refine Transition.runAllowed_iff (fun _ => rfl) ?_ hrun
  intro done before action after hdone hbefore hstep
  have hlistening : Listening before :=
    (Transition.reach_of_run_all hdone).invariant Listening listening_start
      fun _ _ _ hinv _ hnext => hinv.step hnext
  rcases step_cases hlistening hstep with ⟨session, rfl, rfl⟩ | ⟨hclean, _, hsame⟩
  · exact mirrors_commit hlistening hbefore session
  · exact ⟨fun _ => hclean, fun _ => hsame.mpr hbefore⟩

/-- A turn is created and completed in sessions of their own. -/
def activityRun : List (Action Nat) :=
  [.tryCreateStarting 1 ⟨7, 1, 30, .admin⟩ 100, .commit 1,
    .finalizeOnce 2 1 .completed none none 101, .commit 2]

theorem activity_mirrors_commits_executed :
    (∀ done middle, done <+: activityRun → run step ({} : Sessions Nat) done = some middle →
        Mirrors middle) ↔
      RunAllowed step Clean ({} : Sessions Nat) activityRun :=
  activity_mirrors_commits (show run step {} activityRun = some _ from rfl)

/-- A creation is rolled back, and the session is used again: its listener is still there. -/
theorem rolled_back_turn_published :
    (run step ({} : Sessions Nat)
      [.tryCreateStarting 1 ⟨7, 1, 30, .admin⟩ 100, .rollback 1, .commit 1]).any
        (fun sessions => sessions.published = [.turnStarted 1 7 1] &&
          (sessions.table.committed 1).isNone) = true := by
  decide +kernel

end CodexServer.Activity
