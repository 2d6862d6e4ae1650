import CodexServer.Sidebar
import CodexServer.Proof.Activity

/-!
# The sidebar and the turns

A chat is busy in the sidebar just if a start was the last to be heard of it. When everything has been
delivered that is the start of the active turn, unless the end of an earlier one comes after it.
-/

open Versioned

namespace CodexServer.Activity

open Transition (run RunAllowed)

variable {Session : Type} [DecidableEq Session] {table : TurnTable Session}
  {sessions next : Sessions Session} {delivered : List ActivityEvent} {userId chatId turnId : Nat}

/-! ### What is heard -/

theorem busyChats_concat (event : ActivityEvent) (h : event.userId = userId) :
    busyChats userId (delivered ++ [event]) =
      hear (busyChats userId delivered) (chatActivityToPb event) := by
  simp [busyChats, frames, List.filter_append, h]

theorem busyChats_concat_other (event : ActivityEvent) (h : event.userId ≠ userId) :
    busyChats userId (delivered ++ [event]) = busyChats userId delivered := by
  simp [busyChats, frames, List.filter_append, h]

/-- A start that no end of its chat comes after. -/
def LastHeard (delivered : List ActivityEvent) (userId chatId turnId : Nat) : Prop :=
  ∃ before after, delivered = before ++ .turnStarted userId chatId turnId :: after ∧
    ∀ other, .turnEnded userId chatId other ∉ after

theorem LastHeard.concat {event : ActivityEvent} (h : LastHeard delivered userId chatId turnId)
    (hevent : ∀ other, event ≠ .turnEnded userId chatId other) :
    LastHeard (delivered ++ [event]) userId chatId turnId := by
  obtain ⟨before, after, rfl, hafter⟩ := h
  refine ⟨before, after ++ [event], by simp, fun other hmem => ?_⟩
  rcases List.mem_append.mp hmem with hold | hnew
  · exact hafter other hold
  · exact hevent other (List.mem_singleton.mp hnew).symm

theorem LastHeard.of_concat {event : ActivityEvent}
    (h : LastHeard (delivered ++ [event]) userId chatId turnId) :
    event = .turnStarted userId chatId turnId ∨
      (LastHeard delivered userId chatId turnId ∧
        ∀ other, event ≠ .turnEnded userId chatId other) := by
  obtain ⟨before, after, heq, hafter⟩ := h
  induction after using List.reverseRecOn with
  | nil =>
      obtain ⟨-, hlast⟩ := List.append_inj' heq rfl
      exact .inl (List.singleton_inj.mp hlast)
  | append_singleton after last _ =>
      rw [← List.cons_append, ← List.append_assoc] at heq
      obtain ⟨rfl, hlast⟩ := List.append_inj' heq rfl
      obtain rfl := List.singleton_inj.mp hlast
      refine .inr ⟨⟨before, after, rfl, fun other hmem => ?_⟩, ?_⟩
      · exact hafter other (List.mem_append_left _ hmem)
      · rintro other rfl
        exact hafter other (List.mem_append_right _ List.mem_cons_self)

/-- **What the client hears**: a chat is busy just if a start was the last of its events. -/
theorem mem_busyChats : chatId ∈ busyChats userId delivered ↔
    ∃ turnId, LastHeard delivered userId chatId turnId := by
  induction delivered using List.reverseRecOn with
  | nil => simp [busyChats, frames, LastHeard]
  | append_singleton delivered event ih =>
      by_cases huser : event.userId = userId
      · rw [busyChats_concat event huser]
        cases event with
        | turnStarted user chat turn =>
            obtain rfl : user = userId := huser
            simp only [chatActivityToPb, hear, Finset.mem_insert, ih]
            constructor
            · rintro (rfl | ⟨turnId, h⟩)
              · exact ⟨turn, delivered, [], rfl, by simp⟩
              · exact ⟨turnId, h.concat (by simp)⟩
            · rintro ⟨turnId, h⟩
              rcases h.of_concat with hevent | ⟨hlast, -⟩
              · cases hevent
                exact .inl rfl
              · exact .inr ⟨turnId, hlast⟩
        | turnEnded user chat turn =>
            obtain rfl : user = userId := huser
            simp only [chatActivityToPb, hear, Finset.mem_erase, ih]
            constructor
            · rintro ⟨hchat, turnId, h⟩
              exact ⟨turnId, h.concat fun other heq => by
                cases heq
                exact hchat rfl⟩
            · rintro ⟨turnId, h⟩
              rcases h.of_concat with hevent | ⟨hlast, hother⟩
              · cases hevent
              · refine ⟨?_, turnId, hlast⟩
                rintro rfl
                exact hother turn rfl
      · rw [busyChats_concat_other event huser, ih]
        refine exists_congr fun turnId => ⟨fun h => h.concat ?_, fun h => ?_⟩
        · rintro other rfl
          exact huser rfl
        · rcases h.of_concat with rfl | ⟨hlast, -⟩
          · exact absurd rfl huser
          · exact hlast

/-! ### What is committed -/

theorem step_reaches {action : Action Session} (h : step sessions action = some next) :
    sessions.table.Reaches next.table := by
  cases action with
  | tryCreateStarting session payload now =>
      simp only [step, Sessions.tryCreateStarting] at h
      split at h
      case h_3 => cases h
      all_goals
        cases h
        exact TurnService.tryCreateStarting_reaches ‹_›
  | finalizeOnce session turnId status errorCode errorDetail now =>
      simp only [step, Sessions.finalizeOnce] at h
      split at h
      case h_3 => cases h
      case h_4 =>
          cases h
          exact .refl
      all_goals
        rename_i table hfinalize
        have hreaches : sessions.table.Reaches table := by
          simp only [TurnService.finalizeOnce] at hfinalize
          split at hfinalize
          · exact TurnService.execUpdate_reaches (Except.ok.inj hfinalize)
          · cases hfinalize
      · obtain ⟨row, -, rfl⟩ := Option.map_eq_some_iff.mp h
        exact hreaches
      · cases h
        exact hreaches
  | statement session turnId update =>
      simp only [step] at h
      split at h
      · cases h
      · obtain ⟨⟨changed, table⟩, hexec, rfl⟩ := Option.map_eq_some_iff.mp h
        exact TurnService.execUpdate_reaches hexec
  | commit session =>
      cases h
      exact .single (show True from trivial)
        (show turns.step sessions.table (.commit session) = some _ from rfl)
  | rollback session =>
      cases h
      exact .single (show True from trivial)
        (show turns.step sessions.table (.rollback session) = some _ from rfl)

theorem run_reaches {actions : List (Action Session)} (hrun : run step {} actions = some sessions) :
    TurnTable.Reaches .empty sessions.table :=
  (Transition.reach_of_run_all hrun).invariant (fun sessions => TurnTable.Reaches .empty sessions.table)
    .refl fun _ _ _ hbefore _ hstep => hbefore.trans (step_reaches hstep)

/-- Nothing but the end takes an active turn's activity away. -/
theorem apply_isActive {update : TurnUpdate} {row changed : TurnRow}
    (h : update.apply row = some changed) :
    (isFinalize update = true ∧ row.status.isActive = true ∧ changed.status.isActive = false) ∨
      (isFinalize update = false ∧ changed.status.isActive = row.status.isActive) := by
  cases update with
  | setStreamKey | attachAssistantMessage | updateLastEvent =>
      cases h
      exact .inr ⟨rfl, rfl⟩
  | markRunning =>
      simp only [TurnUpdate.apply, TurnRow.markRunning] at h
      split at h <;> cases h
      next hstarting => exact .inr ⟨rfl, by rw [hstarting]; rfl⟩
  | heartbeat =>
      simp only [TurnUpdate.apply, TurnRow.heartbeat] at h
      split at h <;> cases h
      exact .inr ⟨rfl, rfl⟩
  | finalizeOnce status =>
      simp only [TurnUpdate.apply, TurnRow.finalizeOnce] at h
      split at h <;> cases h
      next hactive =>
        refine .inl ⟨rfl, hactive, ?_⟩
        simpa using status.property

/-- The notices of a row: its start, and its end if it is no longer active. -/
theorem replays_notices {history : List TurnEffect} {row : TurnRow} (h : Replays history row)
    (turnId : Nat) :
    history.filterMap (notice turnId row) = .turnStarted row.userId row.chatId turnId ::
      if row.status.isActive = true then [] else [.turnEnded row.userId row.chatId turnId] := by
  induction h with
  | created _ insert => rfl
  | @updated effects before row statement _ hrow ih =>
      obtain ⟨huser, hchat⟩ := apply_owner hrow
      rw [List.filterMap_append, notice_congr huser hchat turnId, ih, huser, hchat]
      rcases apply_isActive hrow with ⟨hfinal, hactive, hended⟩ | ⟨hother, hsame⟩
      · rw [if_pos hactive, if_neg (by rw [hended]; decide)]
        cases statement with
        | finalizeOnce => rfl
        | _ => cases hfinal
      · have hsilent : notice turnId before (.updated statement) = none := by
          cases statement with
          | finalizeOnce => cases hother
          | _ => rfl
        rw [hsame, List.filterMap_cons, hsilent, List.filterMap_nil, List.append_nil]

theorem due_eq (hreach : TurnTable.Reaches .empty table) {row : TurnRow}
    (hrow : table.committed turnId = some row) :
    table.due notice turnId = .turnStarted row.userId row.chatId turnId ::
      if row.status.isActive = true then [] else [.turnEnded row.userId row.chatId turnId] := by
  unfold Table.due
  rw [hrow, Option.elim_some]
  exact replays_notices ((reaches_traced hreach).committed hrow) turnId

instance Clean.decidable (sessions : Sessions Session) (action : Action Session) :
    Decidable (Clean sessions action) :=
  match action with
  | .commit session => inferInstanceAs (Decidable (sessions.leftover session = []))
  | .tryCreateStarting .. | .finalizeOnce .. | .statement .. | .rollback .. => .isTrue trivial

/-- Whatever commits without a listener left over is published. -/
theorem run_mirrors {actions : List (Action Session)} (hrun : run step {} actions = some sessions)
    (hclean : RunAllowed step Clean ({} : Sessions Session) actions) : Mirrors sessions := by
  have hboth : Listening sessions ∧ Mirrors sessions :=
    (Transition.reach_of_run hrun hclean).invariant
      (fun sessions => Listening sessions ∧ Mirrors sessions) ⟨listening_start, fun _ => rfl⟩ ?_
  · exact hboth.2
  · rintro before action after ⟨hlistening, hmirrors⟩ hallowed hstep
    refine ⟨hlistening.step hstep, ?_⟩
    rcases step_cases hlistening hstep with ⟨session, rfl, rfl⟩ | ⟨-, -, hsame⟩
    · exact (mirrors_commit hlistening hmirrors session).mpr hallowed
    · exact hsame.mpr hmirrors

/-! ### What is delivered -/

/-- A turn's end does not overtake its own start. -/
def InOrder (delivered : List ActivityEvent) : Prop :=
  delivered.Pairwise fun earlier later => ∀ userId chatId turnId,
    earlier = .turnEnded userId chatId turnId → later ≠ .turnStarted userId chatId turnId

/-- The user's active turn in a chat. -/
def HasActive (table : TurnTable Session) (userId chatId turnId : Nat) : Prop :=
  ∃ row, table.committed turnId = some row ∧ row.userId = userId ∧ row.chatId = chatId ∧
    row.status.isActive = true

omit [DecidableEq Session] in
theorem mem_delivered (hmirrors : Mirrors sessions) (honce : delivered.Perm sessions.published)
    (event : ActivityEvent) :
    event ∈ delivered ↔ event ∈ sessions.table.due notice event.turnId := by
  rw [honce.mem_iff, ← List.count_pos_iff, hmirrors event, List.count_pos_iff]

/-- What is heard last of a chat is the start of a turn that is active still: had the turn ended, its
end would come later. -/
theorem LastHeard.hasActive (hreach : TurnTable.Reaches .empty sessions.table)
    (hmirrors : Mirrors sessions) (honce : delivered.Perm sessions.published)
    (hordered : InOrder delivered) (h : LastHeard delivered userId chatId turnId) :
    HasActive sessions.table userId chatId turnId := by
  obtain ⟨before, after, hdelivered, hafter⟩ := h
  have hstart : .turnStarted userId chatId turnId ∈ sessions.table.due notice turnId :=
    (mem_delivered hmirrors honce _).mp (by simp [hdelivered])
  cases hrow : sessions.table.committed turnId with
  | none => simp [Table.due, hrow] at hstart
  | some row =>
      have hdue := due_eq hreach hrow
      by_cases hactive : row.status.isActive = true
      · rw [hdue, if_pos hactive, List.mem_singleton] at hstart
        cases hstart
        exact ⟨row, hrow, rfl, rfl, hactive⟩
      · rw [hdue, if_neg hactive, List.mem_pair] at hstart
        rcases hstart with hstart | hended
        · cases hstart
          have hend : .turnEnded row.userId row.chatId turnId ∈ delivered := by
            refine (mem_delivered hmirrors honce _).mpr ?_
            change _ ∈ sessions.table.due notice turnId
            rw [hdue, if_neg hactive]
            exact List.mem_cons_of_mem _ List.mem_cons_self
          rw [hdelivered, List.mem_append, List.mem_cons] at hend
          rcases hend with hbefore | hsame | hlater
          · rw [hdelivered, InOrder, List.pairwise_append] at hordered
            exact absurd rfl (hordered.2.2 _ hbefore _ List.mem_cons_self _ _ _ rfl)
          · cases hsame
          · exact absurd hlater (hafter turnId)
        · cases hended

/-- A chat has one active turn at most. -/
theorem HasActive.unique (hreach : TurnTable.Reaches .empty table) {other : Nat}
    (h : HasActive table userId chatId turnId) (hother : HasActive table userId chatId other) :
    turnId = other := by
  obtain ⟨row, hrow, -, hchat, hactive⟩ := h
  obtain ⟨otherRow, hotherRow, -, hotherChat, hotherActive⟩ := hother
  exact (reaches_exclusive hreach).committed hrow hotherRow
    (Schema.covers_iff.mpr ⟨hactive, hchat⟩) (Schema.covers_iff.mpr ⟨hotherActive, hotherChat⟩)

/-- **The sidebar converges** just if no end of a chat comes after the start of its active turn. -/
theorem sidebar_converges {actions : List (Action Session)}
    (hrun : run step {} actions = some sessions) (hmirrors : Mirrors sessions)
    (honce : delivered.Perm sessions.published) (hordered : InOrder delivered) (userId : Nat) :
    (∀ chatId, chatId ∈ busyChats userId delivered ↔
        ∃ turnId, HasActive sessions.table userId chatId turnId) ↔
      ∀ chatId turnId, HasActive sessions.table userId chatId turnId →
        LastHeard delivered userId chatId turnId := by
  have hreach := run_reaches hrun
  constructor
  · intro hconverges chatId turnId hactive
    obtain ⟨last, hlast⟩ := mem_busyChats.mp ((hconverges chatId).mpr ⟨turnId, hactive⟩)
    have hsame := hactive.unique hreach (hlast.hasActive hreach hmirrors honce hordered)
    exact hsame ▸ hlast
  · intro hlast chatId
    rw [mem_busyChats]
    constructor
    · rintro ⟨turnId, h⟩
      exact ⟨turnId, h.hasActive hreach hmirrors honce hordered⟩
    · rintro ⟨turnId, hactive⟩
      exact ⟨turnId, hlast chatId turnId hactive⟩

/-- Two turns of a chat, the first of them over. -/
def turnAfterTurn : List (Action Nat) :=
  [.tryCreateStarting 1 ⟨7, 1, 30, .admin⟩ 100, .commit 1,
    .finalizeOnce 2 1 .completed none none 101, .commit 2,
    .tryCreateStarting 3 ⟨7, 1, 32, .admin⟩ 102, .commit 3]

theorem turnAfterTurn_run : ∃ sessions : Sessions Nat,
    run step {} turnAfterTurn = some sessions ∧
      sessions.published = [.turnStarted 1 7 1, .turnEnded 1 7 1, .turnStarted 1 7 2] ∧
      HasActive sessions.table 1 7 2 :=
  ⟨_, rfl, rfl, _, rfl, rfl, rfl, rfl⟩

theorem sidebar_converges_executed : ∃ sessions : Sessions Nat,
    run step {} turnAfterTurn = some sessions ∧
      ((∀ chatId, chatId ∈ busyChats 1 sessions.published ↔
          ∃ turnId, HasActive sessions.table 1 chatId turnId) ↔
        ∀ chatId turnId, HasActive sessions.table 1 chatId turnId →
          LastHeard sessions.published 1 chatId turnId) := by
  obtain ⟨sessions, hrun, hpublished, -⟩ := turnAfterTurn_run
  refine ⟨sessions, hrun, sidebar_converges hrun (run_mirrors hrun (by decide)) (.refl _) ?_ 1⟩
  simp [InOrder, hpublished]

/-- The end of the first turn is the last event that arrives. -/
theorem late_end_hides_turn : ∃ (sessions : Sessions Nat) (delivered : List ActivityEvent),
    run step {} turnAfterTurn = some sessions ∧ Mirrors sessions ∧
      delivered.Perm sessions.published ∧ InOrder delivered ∧
      ¬ ∀ chatId, chatId ∈ busyChats 1 delivered ↔
        ∃ turnId, HasActive sessions.table 1 chatId turnId := by
  obtain ⟨sessions, hrun, hpublished, hactive⟩ := turnAfterTurn_run
  refine ⟨sessions, [.turnStarted 1 7 1, .turnStarted 1 7 2, .turnEnded 1 7 1], hrun,
    run_mirrors hrun (by decide), ?_, by simp [InOrder], fun hconverges => ?_⟩
  · rw [hpublished]
    decide
  · have hbusy := (hconverges 7).mpr ⟨2, hactive⟩
    simp [busyChats, frames, ActivityEvent.userId, chatActivityToPb, hear] at hbusy

end CodexServer.Activity
