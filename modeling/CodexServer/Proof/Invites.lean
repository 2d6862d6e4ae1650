import CodexServer.Invites

/-!
# The audit trail of invites

A redemption holds its row from the check to the commit, so there is one for an invite. A revocation
holds the row from its `DELETE` on, and has looked at it before.
-/

open Versioned

namespace CodexServer.Invites

open Transition (run Reach)
open Registration (InviteRow)

variable {system next : System} {database : Database} {index invite : Nat} {phase : Phase}

/-! ### What is wanted -/

def Commit.redeems (invite : Nat) : Commit → Bool
  | redeemed other _ _ => other = invite
  | revoked _ => false

/-- The invite was used before the first transaction. -/
def Database.Used (database : Database) (invite : Nat) : Prop :=
  ∃ row, database.invites invite = some row ∧ row.usedAt.isSome

/-- The committed row is there, and used. -/
def System.Used (system : System) (invite : Nat) : Prop :=
  ∃ row, system.invites.committed invite = some (some row) ∧ row.usedAt.isSome

/-- An invite has been redeemed, here or before. -/
def Redeemed (database : Database) (system : System) (invite : Nat) : Prop :=
  database.Used invite ∨ ∃ entry ∈ system.log, entry.redeems invite = true

structure UsedKept (database : Database) (system : System) : Prop where
  once : ∀ invite, system.log.countP (Commit.redeems invite) ≤ 1
  fresh : ∀ invite, database.Used invite → system.log.countP (Commit.redeems invite) = 0
  before : ∀ invite usedAt expiresAt, .redeemed invite usedAt expiresAt ∈ system.log →
    usedAt < expiresAt
  kept : ∀ invite, Redeemed database system invite → system.Used invite
  revoked : ∀ invite, .revoked invite ∈ system.log → ¬Redeemed database system invite

/-! ### Where a transaction stands -/

/-- The version that a transaction has written, and the committed one it was made of. -/
def Phase.Writes : Phase → Nat → InviteRow → Option InviteRow → Prop
  | .stamping key _ _, invite, before, version => key = invite ∧ version = some before
  | .redeemed key, invite, before, version => key = invite ∧
      ∃ usedAt userId, version = some { before with usedAt := some usedAt, usedByUserId := userId }
  | .deleted key, invite, _, version => key = invite ∧ version = none
  | _, _, _, _ => False

/-- It may have written a row. -/
def Phase.writing : Phase → Bool
  | .stamping .. | .redeemed _ | .deleted _ => true
  | _ => false

theorem Phase.Writes.writing {before : InviteRow} {version : Option InviteRow}
    (h : phase.Writes invite before version) : phase.writing = true := by
  cases phase with
  | stamping | redeemed | deleted => rfl
  | selecting | reading | deleting | committed | refused | raised => exact h.elim

/-- A draft is that of a transaction on its way to the commit. A redemption has found its row free,
and a `DELETE` has found its row. -/
structure Written (system : System) (invite : Nat)
    (draft : Draft Nat (Option InviteRow) Unit) : Prop where
  phase : ∃ phase before, system.phases[draft.owner]? = some phase ∧
    system.invites.committed invite = some (some before) ∧ phase.Writes invite before draft.row ∧
    (draft.row.isSome → before.usedAt = none)

/-- A redemption holds its row. -/
def Phase.Holds (phase : Phase) (invites : Table Nat (Option InviteRow) Unit) (index : Nat) : Prop :=
  match phase with
  | .stamping invite _ _ | .redeemed invite =>
      ∃ draft, invites.draft invite = some draft ∧ draft.owner = index ∧ draft.row.isSome
  | .deleting invite => ∃ version, invites.committed invite = some version
  | .deleted invite =>
      (∃ draft, invites.draft invite = some draft ∧ draft.owner = index ∧ draft.row = none) ∨
        invites.committed invite = some none
  | _ => True

structure Sound (database : Database) (system : System) : Prop where
  drafts : ∀ {invite draft}, system.invites.draft invite = some draft →
    Written system invite draft
  holds : ∀ {index} {phase : Phase}, system.phases[index]? = some phase →
    phase.Holds system.invites index
  used : ∀ {invite}, system.Used invite → Redeemed database system invite
  deleted : ∀ {invite}, .revoked invite ∈ system.log →
    system.invites.committed invite = some none

theorem set_phase_cases {phases : List Phase} {new found : Phase} {other : Nat}
    (h : (phases.set index new)[other]? = some found) :
    (other = index ∧ found = new) ∨ (other ≠ index ∧ phases[other]? = some found) := by
  by_cases hself : other = index
  · subst hself
    obtain ⟨hlt, heq⟩ := List.getElem?_eq_some_iff.mp h
    exact .inl ⟨rfl, by simpa using heq.symm⟩
  · exact .inr ⟨hself, by rwa [List.getElem?_set_ne (Ne.symm hself)] at h⟩

/-- Only this transaction has moved, and it has committed nothing. -/
structure Steps (system next : System) (index : Nat) (new : Phase) : Prop where
  phases : next.phases = system.phases.set index new
  log : next.log = system.log
  committed : next.invites.committed = system.invites.committed
  foreign : ∀ {invite draft}, draft.owner ≠ index →
    (next.invites.draft invite = some draft ↔ system.invites.draft invite = some draft)

/-- What others hold stays theirs. -/
theorem Phase.Holds.foreign {other : Nat} {invites later : Table Nat (Option InviteRow) Unit}
    (h : phase.Holds invites other) (hne : other ≠ index)
    (hcommitted : later.committed = invites.committed)
    (hforeign : ∀ {invite draft}, draft.owner ≠ index →
      (later.draft invite = some draft ↔ invites.draft invite = some draft)) :
    phase.Holds later other := by
  cases phase with
  | stamping invite | redeemed invite =>
      obtain ⟨draft, hdraft, rfl, hrow⟩ := h
      exact ⟨draft, (hforeign hne).mpr hdraft, rfl, hrow⟩
  | deleting invite =>
      obtain ⟨version, hversion⟩ := h
      exact ⟨version, hcommitted ▸ hversion⟩
  | deleted invite =>
      rcases h with ⟨draft, hdraft, rfl, hrow⟩ | hgone
      · exact .inl ⟨draft, (hforeign hne).mpr hdraft, rfl, hrow⟩
      · exact .inr (hcommitted ▸ hgone)
  | selecting | reading | committed | refused | raised => trivial

theorem Sound.steps (h : Sound database system) {new : Phase} (hsteps : Steps system next index new)
    (hindex : index < system.phases.length)
    (hown : ∀ {invite draft}, next.invites.draft invite = some draft → draft.owner = index →
      ∃ before, next.invites.committed invite = some (some before) ∧
        new.Writes invite before draft.row ∧ (draft.row.isSome → before.usedAt = none))
    (hholds : new.Holds next.invites index) : Sound database next where
  drafts {invite draft} hdraft := by
    by_cases howner : draft.owner = index
    · obtain ⟨before, hcommitted, hwrites, hfree⟩ := hown hdraft howner
      refine ⟨new, before, ?_, hcommitted, hwrites, hfree⟩
      rw [hsteps.phases, howner, List.getElem?_set_self hindex]
    · obtain ⟨phase, before, hphase, hcommitted, hwrites, hfree⟩ :=
        (h.drafts ((hsteps.foreign howner).mp hdraft)).phase
      refine ⟨phase, before, ?_, hsteps.committed ▸ hcommitted, hwrites, hfree⟩
      rwa [hsteps.phases, List.getElem?_set_ne (Ne.symm howner)]
  holds {other found} hfound := by
    rw [hsteps.phases] at hfound
    rcases set_phase_cases hfound with ⟨rfl, rfl⟩ | ⟨hne, hfound⟩
    · exact hholds
    · exact (h.holds hfound).foreign hne hsteps.committed hsteps.foreign
  used hused := by
    rw [Redeemed, hsteps.log]
    rw [System.Used, hsteps.committed] at hused
    exact h.used hused
  deleted hrevoked := by
    rw [hsteps.committed]
    exact h.deleted (hsteps.log ▸ hrevoked)

theorem steps_leave : Steps system (system.leave index phase) index phase := by
  refine ⟨rfl, rfl, rfl, fun {invite draft} hne => ?_⟩
  simp [System.leave, Table.rollback, Option.filter_eq_some_iff, hne]

theorem Sound.leave (h : Sound database system) (hindex : index < system.phases.length)
    (hended : phase.ended = true) : Sound database (system.leave index phase) := by
  refine h.steps steps_leave hindex (fun {invite draft} hdraft howner => ?_) ?_
  · exact absurd howner (Table.draft_rollback_cases hdraft).2
  · cases phase with
    | committed | refused | raised => trivial
    | selecting | stamping | redeemed | reading | deleting | deleted => cases hended

theorem steps_setPhase (index : Nat) (new : Phase) :
    Steps system (system.setPhase index new) index new :=
  ⟨rfl, rfl, rfl, fun _ => Iff.rfl⟩

/-- A row that nobody is writing is checked out. -/
theorem steps_write {new : Phase} {draft : Draft Nat (Option InviteRow) Unit}
    (howner : draft.owner = index)
    (hmine : ∀ held, system.invites.draft invite = some held → held.owner = index) :
    Steps system
      { system.setPhase index new with invites := system.invites.write invite draft } index new where
  phases := rfl
  log := rfl
  committed := rfl
  foreign {other held} hne := by
    by_cases hother : other = invite
    · subst hother
      refine iff_of_false (fun hheld => ?_) (fun hheld => hne (hmine held hheld))
      rcases Table.draft_write_cases hheld with ⟨-, rfl⟩ | ⟨hself, -⟩
      · exact hne howner
      · exact hself rfl
    · simp [Table.write, hother]

/-- Nothing is written by a transaction that is not past its first statement. -/
theorem Sound.no_draft (h : Sound database system) (hphase : system.phases[index]? = some phase)
    (hnone : phase.writing = false) {other : Nat}
    {draft : Draft Nat (Option InviteRow) Unit} (hdraft : system.invites.draft other = some draft) :
    draft.owner ≠ index := by
  intro howner
  obtain ⟨found, before, hfound, -, hwrites, -⟩ := (h.drafts hdraft).phase
  rw [howner, hphase, Option.some.injEq] at hfound
  subst hfound
  exact Bool.false_ne_true (hnone.symm.trans hwrites.writing)

/-- A statement of a transaction that has written nothing: it changes no row, or takes a row that
nobody is writing. -/
theorem Sound.execUpdate_first (h : Sound database system)
    (hphase : system.phases[index]? = some phase) (hnone : phase.writing = false) {statement : Statement}
    {changed : Bool} {invites : Table Nat (Option InviteRow) Unit}
    (hexec : table.execUpdate system.invites index invite statement = some (changed, invites)) :
    (changed = false ∧ invites = system.invites) ∨
      ∃ row, changed = true ∧ system.invites.draft invite = none ∧
        system.invites.committed invite = some (some row) ∧
        invites = system.invites.write invite ⟨index, statement.apply row, [()]⟩ := by
  rcases table.execUpdate_cases hexec with hstay |
    ⟨draft, row, effect, -, hdraft, howner, -, -⟩ |
    ⟨version, row, effect, rfl, hdraft, hversion, hupdate, rfl⟩
  · exact .inl hstay
  · exact absurd howner (h.no_draft hphase hnone hdraft)
  · obtain ⟨before, rfl, hrow⟩ := Option.map_eq_some_iff.mp hupdate
    cases hrow
    exact .inr ⟨before, rfl, hdraft, hversion, rfl⟩

theorem view_write {tx : Nat} {version : Option InviteRow} (invites : Table Nat _ Unit) :
    (invites.write invite ⟨tx, version, [()]⟩).view tx invite = some version := by
  simp [Table.view, Table.write]

/-- A row has been taken for the first time. -/
theorem Sound.checkout (h : Sound database system) (hindex : index < system.phases.length)
    {new : Phase} {row : InviteRow} {version : Option InviteRow}
    (hnone : ∀ {other draft}, system.invites.draft other = some draft → draft.owner ≠ index)
    (hdraft : system.invites.draft invite = none)
    (hcommitted : system.invites.committed invite = some (some row))
    (hwrites : new.Writes invite row version) (hfree : version.isSome → row.usedAt = none)
    (hholds : new.Holds (system.invites.write invite ⟨index, version, [()]⟩) index) :
    Sound database
      { system.setPhase index new with
        invites := system.invites.write invite ⟨index, version, [()]⟩ } := by
  refine h.steps (steps_write rfl fun held hheld => ?_) hindex (fun hmine howner => ?_) hholds
  · cases hdraft.symm.trans hheld
  · rcases Table.draft_write_cases hmine with ⟨rfl, rfl⟩ | ⟨-, hold⟩
    · exact ⟨row, hcommitted, hwrites, hfree⟩
    · exact absurd howner (hnone hold)

/-! ### What each statement does -/

/-- `redeem` raises, or takes a row that is free and has not expired. -/
theorem Sound.select_cases (h : Sound database system) {token : String} {userId now usedAt : Nat}
    (hphase : system.phases[index]? = some (.selecting token userId))
    (hnext : system.select index token userId now usedAt = some next) :
    (∃ error, next = system.leave index (.raised error)) ∨
      ∃ invite row, system.invites.draft invite = none ∧
        system.invites.committed invite = some (some row) ∧
        (system.invites.find? index fun version => version.any fun row => row.token = token) =
          some (invite, some row) ∧
        row.usedAt = none ∧ now < row.expiresAt ∧
        next = { system.setPhase index (.stamping invite usedAt userId) with
          invites := system.invites.write invite ⟨index, some row, [()]⟩ } := by
  unfold System.select at hnext
  split at hnext
  · cases hnext
    exact .inl ⟨_, rfl⟩
  · next invite version hfind =>
      split at hnext
      · cases hnext
      · cases hnext
        exact .inl ⟨_, rfl⟩
      · next invites hexec =>
          rcases h.execUpdate_first hphase rfl hexec with ⟨hfalse, -⟩ |
            ⟨row, -, hdraft, hcommitted, rfl⟩
          · cases hfalse
          · rw [view_write] at hnext
            dsimp only [Statement.apply, Option.join_some] at hnext
            split at hnext
            · cases hnext
              exact .inl ⟨_, rfl⟩
            · next hfree =>
                split at hnext
                · cases hnext
                  exact .inl ⟨_, rfl⟩
                · next hopen =>
                    cases hnext
                    have hseen := (Table.find?_some hfind).1
                    rw [Table.view_of_foreign fun draft hheld => h.no_draft hphase rfl hheld,
                      hcommitted] at hseen
                    cases hseen
                    exact .inr ⟨invite, row, hdraft, hcommitted, hfind, by simpa using hfree,
                      Nat.lt_of_not_le hopen, rfl⟩

theorem Sound.stamp_cases (h : Sound database system) {usedAt userId : Nat}
    (hphase : system.phases[index]? = some (.stamping invite usedAt userId))
    (hnext : system.stamp index invite usedAt userId = some next) :
    next = system.leave index (.raised none) ∨
      ∃ before effects, system.invites.committed invite = some (some before) ∧
        before.usedAt = none ∧
        (∀ held, system.invites.draft invite = some held → held.owner = index) ∧
        next = { system.setPhase index (.redeemed invite) with
          invites := system.invites.write invite ⟨index,
            some { before with usedAt := some usedAt, usedByUserId := some userId }, effects⟩ } := by
  obtain ⟨draft, hdraft, rfl, -⟩ := h.holds hphase
  obtain ⟨found, before, hfound, hcommitted, hwrites, hfree⟩ := (h.drafts hdraft).phase
  cases hphase.symm.trans hfound
  obtain ⟨-, hrow⟩ := hwrites
  unfold System.stamp at hnext
  split at hnext
  · cases hnext
  · next invites hexec =>
      cases hnext
      rcases table.execUpdate_cases hexec with ⟨hfalse, -⟩ |
        ⟨held, row, effect, -, hheld, -, hupdate, rfl⟩ | ⟨version, row, effect, -, hnone, -, -, -⟩
      · cases hfalse
      · cases hdraft.symm.trans hheld
        rw [hrow] at hupdate
        cases hupdate
        refine .inr ⟨before, _, hcommitted, hfree (by simp [hrow]), fun other hother => ?_, rfl⟩
        cases hdraft.symm.trans hother
        rfl
      · cases hdraft.symm.trans hnone
  · cases hnext
    exact .inl rfl

/-- `revoke` answers, or has seen a committed row that nobody has used. -/
theorem Sound.read_cases (h : Sound database system)
    (hphase : system.phases[index]? = some (.reading invite)) :
    system.read index invite = system.leave index .refused ∨
      ∃ row, system.invites.committed invite = some (some row) ∧ row.usedAt = none ∧
        system.read index invite = system.setPhase index (.deleting invite) := by
  unfold System.read
  split
  · exact .inl rfl
  · next row hview =>
      split
      · exact .inl rfl
      · next hfree =>
          have hseen := Option.join_eq_some_iff.mp hview
          rw [Table.view_of_foreign fun draft hdraft => h.no_draft hphase rfl hdraft] at hseen
          exact .inr ⟨row, hseen, by simpa using hfree, rfl⟩

theorem Sound.delete_cases (h : Sound database system)
    (hphase : system.phases[index]? = some (.deleting invite))
    (hnext : system.delete index invite = some next) :
    (system.invites.committed invite = some none ∧
        next = system.setPhase index (.deleted invite)) ∨
      ∃ row, system.invites.draft invite = none ∧
        system.invites.committed invite = some (some row) ∧
        next = { system.setPhase index (.deleted invite) with
          invites := system.invites.write invite ⟨index, none, [()]⟩ } := by
  unfold System.delete at hnext
  split at hnext
  · cases hnext
  · next changed invites hexec =>
      cases hnext
      rcases h.execUpdate_first hphase rfl hexec with ⟨rfl, rfl⟩ |
        ⟨row, -, hdraft, hcommitted, rfl⟩
      · refine .inl ⟨?_, rfl⟩
        obtain ⟨version, hversion⟩ := h.holds hphase
        have hgone := table.execUpdate_unchanged
          (fun draft hdraft => h.no_draft hphase rfl hdraft) hexec
        rw [hversion] at hgone ⊢
        cases version with
        | none => rfl
        | some row => cases hgone
      · exact .inr ⟨row, hdraft, hcommitted, rfl⟩

theorem Sound.select (h : Sound database system) {token : String} {userId now usedAt : Nat}
    (hphase : system.phases[index]? = some (.selecting token userId))
    (hnext : system.select index token userId now usedAt = some next) : Sound database next := by
  have hindex := (List.getElem?_eq_some_iff.mp hphase).1
  rcases h.select_cases hphase hnext with ⟨error, rfl⟩ |
    ⟨invite, row, hdraft, hcommitted, -, hfree, -, rfl⟩
  · exact h.leave hindex rfl
  · exact h.checkout hindex (h.no_draft hphase rfl) hdraft hcommitted ⟨rfl, rfl⟩
      (fun _ => hfree) ⟨_, Function.update_self _ _ _, rfl, rfl⟩

theorem Sound.stamp (h : Sound database system) {usedAt userId : Nat}
    (hphase : system.phases[index]? = some (.stamping invite usedAt userId))
    (hnext : system.stamp index invite usedAt userId = some next) : Sound database next := by
  have hindex := (List.getElem?_eq_some_iff.mp hphase).1
  rcases h.stamp_cases hphase hnext with rfl | ⟨before, effects, hcommitted, hfree, hmine, rfl⟩
  · exact h.leave hindex rfl
  · refine h.steps (steps_write rfl hmine) hindex (fun hdraft howner => ?_)
      ⟨_, Function.update_self _ _ _, rfl, rfl⟩
    rcases Table.draft_write_cases hdraft with ⟨rfl, rfl⟩ | ⟨hne, hold⟩
    · exact ⟨before, hcommitted, ⟨rfl, usedAt, userId, rfl⟩, fun _ => hfree⟩
    · obtain ⟨phase, _, hother, -, hwrites, -⟩ := (h.drafts hold).phase
      rw [howner] at hother
      cases hphase.symm.trans hother
      exact absurd hwrites.1.symm hne

theorem Sound.read (h : Sound database system)
    (hphase : system.phases[index]? = some (.reading invite)) :
    Sound database (system.read index invite) := by
  have hindex := (List.getElem?_eq_some_iff.mp hphase).1
  rcases h.read_cases hphase with heq | ⟨row, hcommitted, -, heq⟩
  · rw [heq]
    exact h.leave hindex rfl
  · rw [heq]
    exact h.steps (steps_setPhase index _) hindex
      (fun hdraft howner => absurd howner (h.no_draft hphase rfl hdraft)) ⟨_, hcommitted⟩

theorem Sound.delete (h : Sound database system)
    (hphase : system.phases[index]? = some (.deleting invite))
    (hnext : system.delete index invite = some next) : Sound database next := by
  have hindex := (List.getElem?_eq_some_iff.mp hphase).1
  rcases h.delete_cases hphase hnext with ⟨hgone, rfl⟩ | ⟨row, hdraft, hcommitted, rfl⟩
  · exact h.steps (steps_setPhase index _) hindex
      (fun hdraft howner => absurd howner (h.no_draft hphase rfl hdraft)) (.inr hgone)
  · exact h.checkout hindex (h.no_draft hphase rfl) hdraft hcommitted ⟨rfl, rfl⟩
      (fun hsome => by cases hsome) (.inl ⟨_, Function.update_self _ _ _, rfl, rfl⟩)

/-! ### Commits -/

/-- A transaction has written no other row than its own. -/
theorem Sound.foreign (h : Sound database system) (hphase : system.phases[index]? = some phase)
    (hkey : ∀ {other before version}, phase.Writes other before version → invite = other)
    {other : Nat} (hne : other ≠ invite) {draft : Draft Nat (Option InviteRow) Unit}
    (hdraft : system.invites.draft other = some draft) : draft.owner ≠ index := by
  intro howner
  obtain ⟨found, before, hfound, -, hwrites, -⟩ := (h.drafts hdraft).phase
  rw [howner] at hfound
  cases hphase.symm.trans hfound
  exact hne (hkey hwrites).symm

theorem Table.commit_elsewhere {invites : Table Nat (Option InviteRow) Unit}
    (hforeign : ∀ draft, invites.draft invite = some draft → draft.owner ≠ index) :
    (invites.commit index).committed invite = invites.committed invite := by
  rcases invites.commit_at index invite with ⟨draft, hdraft, howner, -⟩ | ⟨-, hsame, -⟩
  · exact absurd howner (hforeign draft hdraft)
  · exact hsame

/-- A commit leaves the rows with the versions they have, but for the one it has written. It has
written one that is not deleted. -/
structure Commits (system : System) (index invite : Nat) (commits : List Commit) : Prop where
  elsewhere : ∀ {other}, other ≠ invite →
    (system.invites.commit index).committed other = system.invites.committed other
  written : (∃ before, system.invites.committed invite = some (some before)) ∨
    (system.invites.commit index).committed invite = system.invites.committed invite
  used : (system.commit index commits).Used invite →
    system.Used invite ∨ ∃ entry ∈ commits, entry.redeems invite = true
  revoked : ∀ {other}, .revoked other ∈ commits →
    (system.invites.commit index).committed other = some none
  there : ∀ {version}, system.invites.committed invite = some version →
    ∃ later, (system.invites.commit index).committed invite = some later

theorem Commits.deleted {commits : List Commit} (hcommits : Commits system index invite commits)
    {other : Nat} (hgone : system.invites.committed other = some none) :
    (system.invites.commit index).committed other = some none := by
  by_cases hother : other = invite
  · subst hother
    rcases hcommits.written with ⟨before, hbefore⟩ | hsame
    · cases hgone.symm.trans hbefore
    · exact hsame.trans hgone
  · exact (hcommits.elsewhere hother).trans hgone

theorem Sound.commit (h : Sound database system) {commits : List Commit}
    (hcommits : Commits system index invite commits) :
    Sound database (system.commit index commits) where
  drafts {other draft} hdraft := by
    obtain ⟨hold, howner⟩ := Table.draft_commit_cases hdraft
    obtain ⟨found, before, hfound, hcommitted, hwrites, hfree⟩ := (h.drafts hold).phase
    refine ⟨found, before, ?_, ?_, hwrites, hfree⟩
    · exact (List.getElem?_set_ne (Ne.symm howner)).trans hfound
    · exact ((Table.commit_foreign hold howner).1).trans hcommitted
  holds {other found} hfound := by
    rcases set_phase_cases hfound with ⟨rfl, rfl⟩ | ⟨hne, hfound⟩
    · trivial
    · have hheld := h.holds hfound
      cases found with
      | stamping key | redeemed key =>
          obtain ⟨draft, hdraft, rfl, hrow⟩ := hheld
          exact ⟨draft, (Table.commit_foreign hdraft hne).2, rfl, hrow⟩
      | deleting key =>
          obtain ⟨version, hversion⟩ := hheld
          by_cases hkey : key = invite
          · subst hkey
            exact hcommits.there hversion
          · exact ⟨version, (hcommits.elsewhere hkey).trans hversion⟩
      | deleted key =>
          rcases hheld with ⟨draft, hdraft, rfl, hrow⟩ | hgone
          · exact .inl ⟨draft, (Table.commit_foreign hdraft hne).2, rfl, hrow⟩
          · exact .inr (hcommits.deleted hgone)
      | selecting | reading | committed | refused | raised => trivial
  used {other} hused := by
    have hredeemed : Redeemed database system other →
        Redeemed database (system.commit index commits) other := by
      rintro (hbefore | ⟨entry, hentry, hredeems⟩)
      · exact .inl hbefore
      · exact .inr ⟨entry, List.mem_append_left _ hentry, hredeems⟩
    by_cases hother : other = invite
    · subst hother
      rcases hcommits.used hused with hbefore | ⟨entry, hentry, hredeems⟩
      · exact hredeemed (h.used hbefore)
      · exact .inr ⟨entry, List.mem_append_right _ hentry, hredeems⟩
    · obtain ⟨row, hrow, hset⟩ := hused
      exact hredeemed (h.used ⟨row, (hcommits.elsewhere hother).symm.trans hrow, hset⟩)
  deleted {other} hrevoked := by
    rcases List.mem_append.mp hrevoked with hbefore | hnew
    · exact hcommits.deleted (h.deleted hbefore)
    · exact hcommits.revoked hnew

/-- What the commit of a redemption writes: the row it has found free, with the stamp. -/
theorem Sound.redemption (h : Sound database system)
    (hphase : system.phases[index]? = some (.redeemed invite)) :
    ∃ before usedAt, system.invites.committed invite = some (some before) ∧
      before.usedAt = none ∧
      system.redemption index invite = [.redeemed invite usedAt before.expiresAt] ∧
      (system.commit index (system.redemption index invite)).Used invite := by
  obtain ⟨draft, hdraft, rfl, hsome⟩ := h.holds hphase
  obtain ⟨found, before, hfound, hcommitted, hwrites, hfree⟩ := (h.drafts hdraft).phase
  cases hphase.symm.trans hfound
  obtain ⟨-, usedAt, userId, hrow⟩ := hwrites
  refine ⟨before, usedAt, hcommitted, hfree hsome, ?_, ?_⟩
  · simp [System.redemption, Table.view, hdraft, hrow]
  · rcases system.invites.commit_at draft.owner invite with ⟨mine, hmine, -, hnew, -⟩ | ⟨hnot, -⟩
    · cases hdraft.symm.trans hmine
      exact ⟨_, hnew.trans (congrArg some hrow), rfl⟩
    · exact absurd rfl (hnot draft hdraft)

theorem Sound.commits_redeemed (h : Sound database system)
    (hphase : system.phases[index]? = some (.redeemed invite)) :
    Commits system index invite (system.redemption index invite) := by
  obtain ⟨before, usedAt, hcommitted, hfree, hentry, hused⟩ := h.redemption hphase
  refine ⟨fun hne => ?_, .inl ⟨before, hcommitted⟩,
    fun _ => .inr ?_, fun hrevoked => ?_, fun _ => ?_⟩
  · exact Table.commit_elsewhere fun draft hdraft =>
      h.foreign hphase (fun hwrites => hwrites.1) hne hdraft
  · rw [hentry]
    exact ⟨_, List.mem_singleton_self _, by simp [Commit.redeems]⟩
  · rw [hentry] at hrevoked
    simp at hrevoked
  · obtain ⟨row, hrow, -⟩ := hused
    exact ⟨_, hrow⟩

/-- After the commit of a revocation there is no row. -/
theorem Sound.gone (h : Sound database system)
    (hphase : system.phases[index]? = some (.deleted invite)) :
    (system.invites.commit index).committed invite = some none := by
  rcases system.invites.commit_at index invite with
    ⟨draft, hdraft, rfl, hnew, -⟩ | ⟨hforeign, hsame, -⟩
  · obtain ⟨found, before, hfound, -, hwrites, -⟩ := (h.drafts hdraft).phase
    cases hphase.symm.trans hfound
    exact hnew.trans (congrArg some hwrites.2)
  · rcases h.holds hphase with ⟨draft, hdraft, howner, -⟩ | hgone
    · exact absurd howner (hforeign draft hdraft)
    · exact hsame.trans hgone

theorem Sound.commits_deleted (h : Sound database system)
    (hphase : system.phases[index]? = some (.deleted invite)) :
    Commits system index invite [.revoked invite] := by
  have hgone := h.gone hphase
  refine ⟨fun hne => ?_, ?_, fun hused => ?_, fun hrevoked => ?_, fun _ => ⟨none, hgone⟩⟩
  · exact Table.commit_elsewhere fun draft hdraft =>
      h.foreign hphase (fun hwrites => hwrites.1) hne hdraft
  · rcases h.holds hphase with ⟨draft, hdraft, -, -⟩ | hbefore
    · obtain ⟨found, before, -, hcommitted, -, -⟩ := (h.drafts hdraft).phase
      exact .inl ⟨before, hcommitted⟩
    · exact .inr (hgone.trans hbefore.symm)
  · obtain ⟨row, hrow, -⟩ := hused
    cases hgone.symm.trans hrow
  · obtain rfl : _ = invite := by simpa using hrevoked
    exact hgone

/-! ### Every run -/

theorem append_phase_cases {phases : List Phase} {new found : Phase}
    (h : (phases ++ [new])[index]? = some found) :
    phases[index]? = some found ∨ (index = phases.length ∧ found = new) := by
  by_cases hindex : index < phases.length
  · exact .inl ((List.getElem?_append_left hindex).symm.trans h)
  · have hlast : index = phases.length := by
      have := (List.getElem?_eq_some_iff.mp h).1
      simp only [List.length_append, List.length_singleton] at this
      omega
    subst hlast
    simp only [List.getElem?_concat_length, Option.some.injEq] at h
    exact .inr ⟨rfl, h.symm⟩

theorem Sound.append (h : Sound database system) {new : Phase}
    (hholds : new.Holds system.invites system.phases.length) :
    Sound database { system with phases := system.phases ++ [new] } where
  drafts hdraft := by
    obtain ⟨found, before, hfound, hcommitted, hwrites, hfree⟩ := (h.drafts hdraft).phase
    refine ⟨found, before, ?_, hcommitted, hwrites, hfree⟩
    exact (List.getElem?_append_left (List.getElem?_eq_some_iff.mp hfound).1).trans hfound
  holds {index phase} hphase := by
    rcases append_phase_cases hphase with hphase | ⟨rfl, rfl⟩
    · exact h.holds hphase
    · exact hholds
  used := h.used
  deleted := h.deleted

theorem raise_cases (hnext : step system (.raise index) = some next) :
    ∃ phase, system.phases[index]? = some phase ∧ phase.ended = false ∧
      next = system.leave index (.raised none) := by
  unfold Invites.step at hnext
  cases hphase : system.phases[index]? with
  | none => simp [hphase] at hnext
  | some phase =>
      simp only [hphase] at hnext
      split at hnext
      · cases hnext
      · next hopen =>
          cases hnext
          exact ⟨phase, rfl, by simpa using hopen, rfl⟩

theorem Sound.step (h : Sound database system) {action : Action}
    (hnext : step system action = some next) : Sound database next := by
  cases action with
  | redeem token userId =>
      cases hnext
      exact h.append trivial
  | revoke invite =>
      cases hnext
      exact h.append trivial
  | goOn index now usedAt =>
      obtain ⟨phase, hphase, hnext⟩ := Option.bind_eq_some_iff.mp hnext
      cases phase with
      | selecting token userId => exact h.select hphase hnext
      | stamping invite usedAt userId => exact h.stamp hphase hnext
      | redeemed invite =>
          cases hnext
          exact h.commit (h.commits_redeemed hphase)
      | reading invite =>
          cases hnext
          exact h.read hphase
      | deleting invite => exact h.delete hphase hnext
      | deleted invite =>
          cases hnext
          exact h.commit (h.commits_deleted hphase)
      | committed | refused | raised => cases hnext
  | raise index =>
      obtain ⟨phase, hphase, -, rfl⟩ := raise_cases hnext
      exact h.leave (List.getElem?_eq_some_iff.mp hphase).1 rfl

theorem sound_start (database : Database) : Sound database database.start where
  drafts hdraft := by cases hdraft
  holds hphase := by cases hphase
  used := by
    rintro invite ⟨row, hrow, hused⟩
    obtain ⟨found, hfound, hsame⟩ := Option.map_eq_some_iff.mp hrow
    cases hsame
    exact .inl ⟨row, hfound, hused⟩
  deleted hrevoked := by cases hrevoked

theorem usedKept_start (database : Database) : UsedKept database database.start where
  once _ := Nat.zero_le _
  fresh _ _ := rfl
  before _ _ _ hentry := by cases hentry
  kept := by
    rintro invite (⟨row, hrow, hused⟩ | ⟨entry, hentry, -⟩)
    · exact ⟨row, by simp [Database.start, hrow], hused⟩
    · cases hentry
  revoked _ hentry := by cases hentry

/-- It depends on what is committed alone. -/
theorem UsedKept.congr (h : UsedKept database system) (hlog : next.log = system.log)
    (hcommitted : next.invites.committed = system.invites.committed) : UsedKept database next := by
  obtain ⟨once, fresh, before, kept, revoked⟩ := h
  refine ⟨?_, ?_, ?_, ?_, ?_⟩
  · rwa [hlog]
  · rwa [hlog]
  · rwa [hlog]
  · unfold Redeemed System.Used
    rwa [hlog, hcommitted]
  · unfold Redeemed
    rwa [hlog]

theorem redeemed_commit {commits : List Commit} :
    Redeemed database (system.commit index commits) invite ↔
      Redeemed database system invite ∨ ∃ entry ∈ commits, entry.redeems invite = true := by
  simp only [Redeemed, System.commit, List.mem_append, or_assoc, or_and_right, exists_or]

/-- The commit of a redemption keeps the law, for it was stamped in time. -/
theorem Sound.redeemed_kept (h : Sound database system) (hkept : UsedKept database system)
    (hphase : system.phases[index]? = some (.redeemed invite))
    (htime : ∀ usedAt expiresAt, .redeemed invite usedAt expiresAt ∈
      system.redemption index invite → usedAt < expiresAt) :
    UsedKept database (system.commit index (system.redemption index invite)) := by
  have hcommits := h.commits_redeemed hphase
  obtain ⟨before, usedAt, hcommitted, hfree, hentry, hused⟩ := h.redemption hphase
  rw [hentry] at htime hcommits hused ⊢
  have hunused : ¬Redeemed database system invite := by
    intro hredeemed
    obtain ⟨row, hrow, hset⟩ := hkept.kept invite hredeemed
    cases hcommitted.symm.trans hrow
    simp [hfree] at hset
  have hcount (other : Nat) : (system.log ++ [Commit.redeemed invite usedAt
      before.expiresAt]).countP (Commit.redeems other) =
        system.log.countP (Commit.redeems other) + if invite = other then 1 else 0 := by
    simp [Commit.redeems, List.countP_append, List.countP_cons]
  have hnone : system.log.countP (Commit.redeems invite) = 0 :=
    List.countP_eq_zero.mpr fun entry hmem hredeems => hunused (.inr ⟨entry, hmem, hredeems⟩)
  refine ⟨fun other => ?_, fun other hbefore => ?_, fun other at_ expiresAt hmem => ?_,
    fun other hredeemed => ?_, fun other hrevoked hredeemed => ?_⟩
  · have hone := hkept.once other
    refine (hcount other).le.trans ?_
    split
    · next hsame =>
        subst hsame
        omega
    · omega
  · refine (hcount other).trans ?_
    rw [hkept.fresh other hbefore, if_neg]
    rintro rfl
    exact hunused (.inl hbefore)
  · rcases List.mem_append.mp hmem with hold | hnew
    · exact hkept.before other at_ expiresAt hold
    · obtain ⟨rfl, rfl, rfl⟩ : other = invite ∧ at_ = usedAt ∧ expiresAt = before.expiresAt := by
        simpa using hnew
      exact htime _ _ (List.mem_singleton_self _)
  · by_cases hother : other = invite
    · subst hother
      exact hused
    · rcases redeemed_commit.mp hredeemed with hold | ⟨entry, hmem, hredeems⟩
      · obtain ⟨row, hrow, hset⟩ := hkept.kept other hold
        exact ⟨row, (hcommits.elsewhere hother).trans hrow, hset⟩
      · obtain rfl := List.mem_singleton.mp hmem
        exact absurd (of_decide_eq_true hredeems).symm hother
  · have hold : .revoked other ∈ system.log := by simpa [System.commit] using hrevoked
    rcases redeemed_commit.mp hredeemed with hredeemed | ⟨entry, hmem, hredeems⟩
    · exact hkept.revoked other hold hredeemed
    · obtain rfl := List.mem_singleton.mp hmem
      obtain rfl : invite = other := of_decide_eq_true hredeems
      cases hcommitted.symm.trans (h.deleted hold)

/-- The commit of a revocation keeps it, for nobody has redeemed the invite by then. -/
theorem Sound.deleted_kept (h : Sound database system) (hkept : UsedKept database system)
    (hphase : system.phases[index]? = some (.deleted invite)) (hunused : ¬system.Used invite) :
    UsedKept database (system.commit index [.revoked invite]) := by
  have hcommits := h.commits_deleted hphase
  have hsame (other : Nat) : Redeemed database (system.commit index [.revoked invite]) other ↔
      Redeemed database system other := by
    simp [redeemed_commit, Commit.redeems]
  have hcount (other : Nat) : (system.log ++ [Commit.revoked invite]).countP
      (Commit.redeems other) = system.log.countP (Commit.redeems other) := by
    simp [Commit.redeems, List.countP_append]
  refine ⟨fun other => (hcount other).le.trans (hkept.once other),
    fun other hbefore => (hcount other).trans (hkept.fresh other hbefore),
    fun other usedAt expiresAt hmem => ?_, fun other hredeemed => ?_,
    fun other hrevoked hredeemed => ?_⟩
  · exact hkept.before other usedAt expiresAt (by simpa [System.commit] using hmem)
  · obtain ⟨row, hrow, hset⟩ := hkept.kept other ((hsame other).mp hredeemed)
    by_cases hother : other = invite
    · subst hother
      exact absurd ⟨row, hrow, hset⟩ hunused
    · exact ⟨row, (hcommits.elsewhere hother).trans hrow, hset⟩
  · rcases List.mem_append.mp hrevoked with hold | hnew
    · exact hkept.revoked other hold ((hsame other).mp hredeemed)
    · obtain rfl : other = invite := by simpa using hnew
      exact hunused (hkept.kept other ((hsame other).mp hredeemed))

/-! ### What the law needs of a schedule -/

/-- What a transaction goes by up to its commit: a redemption is stamped in time, and nobody has used
the row of a revocation. -/
def Phase.Keeps (phase : Phase) (invites : Table Nat (Option InviteRow) Unit) (index : Nat) : Prop :=
  match phase with
  | .stamping invite usedAt _ =>
      ∀ row, invites.committed invite = some (some row) → usedAt < row.expiresAt
  | .redeemed invite => ∀ draft row usedAt, invites.draft invite = some draft →
      draft.owner = index → draft.row = some row → row.usedAt = some usedAt → usedAt < row.expiresAt
  | .deleting invite | .deleted invite =>
      ∀ row, invites.committed invite = some (some row) → row.usedAt = none
  | _ => True

/-- The invite whose committed row it goes by. -/
def Phase.watched : Phase → Option Nat
  | .stamping invite _ _ | .deleting invite | .deleted invite => some invite
  | _ => none

theorem Phase.Keeps.later {other : Nat} {invites later : Table Nat (Option InviteRow) Unit}
    (h : phase.Keeps invites other)
    (hcommitted : ∀ {key row}, phase.watched = some key → later.committed key = some (some row) →
      invites.committed key = some (some row))
    (hdraft : ∀ {key draft}, draft.owner = other → later.draft key = some draft →
      invites.draft key = some draft) : phase.Keeps later other := by
  cases phase with
  | stamping invite => exact fun row hrow => h row (hcommitted rfl hrow)
  | redeemed invite =>
      exact fun draft row usedAt hheld howner => h draft row usedAt (hdraft howner hheld) howner
  | deleting invite | deleted invite => exact fun row hrow => h row (hcommitted rfl hrow)
  | selecting | reading | committed | refused | raised => trivial

/-- Every transaction goes by what is so. -/
def Kept (system : System) : Prop :=
  ∀ index (phase : Phase), system.phases[index]? = some phase → phase.Keeps system.invites index

theorem kept_start (database : Database) : Kept database.start := by
  intro index phase hphase
  cases hphase

theorem Kept.steps (h : Kept system) {new : Phase} (hsteps : Steps system next index new)
    (hnew : new.Keeps next.invites index) : Kept next := by
  intro other found hfound
  rw [hsteps.phases] at hfound
  rcases set_phase_cases hfound with ⟨rfl, rfl⟩ | ⟨hne, hfound⟩
  · exact hnew
  · refine (h other found hfound).later (fun _ hrow => hsteps.committed ▸ hrow) ?_
    intro key draft howner hdraft
    exact (hsteps.foreign (howner ▸ hne)).mp hdraft

theorem Kept.commit (h : Kept system) {commits : List Commit}
    (hcommitted : ∀ {other found key row}, other ≠ index → system.phases[other]? = some found →
      found.watched = some key →
      (system.invites.commit index).committed key = some (some row) →
      system.invites.committed key = some (some row)) :
    Kept (system.commit index commits) := by
  intro other found hfound
  rcases set_phase_cases hfound with ⟨rfl, rfl⟩ | ⟨hne, hfound⟩
  · trivial
  · exact (h other found hfound).later (hcommitted hne hfound)
      fun _ hdraft => (Table.draft_commit_cases hdraft).1

/-- No invite expires between the two times that a redemption of it reads, and none is redeemed by a
commit while a revocation that has read it is still to send its `DELETE`. -/
def Phase.Spares (system : System) (index now usedAt : Nat) : Phase → Prop
  | .selecting token _ =>
      ∀ found ∈ system.invites.find? index fun version => version.any fun row => row.token = token,
        ∀ row ∈ found.2, now < row.expiresAt → usedAt < row.expiresAt
  | .redeemed invite => .deleting invite ∉ system.phases
  | .stamping .. | .reading _ | .deleting _ | .deleted _ | .committed | .refused | .raised _ => True

instance (index now usedAt : Nat) : (phase : Phase) →
    Decidable (phase.Spares system index now usedAt)
  | .selecting token _ => inferInstanceAs (Decidable (∀ found ∈
      system.invites.find? index fun version => version.any fun row => row.token = token,
      ∀ row ∈ found.2, now < row.expiresAt → usedAt < row.expiresAt))
  | .redeemed invite => inferInstanceAs (Decidable (.deleting invite ∉ system.phases))
  | .stamping .. | .reading _ | .deleting _ | .deleted _ | .committed | .refused | .raised _ =>
      isTrue trivial

def Spares (system : System) : Action → Prop
  | .goOn index now usedAt =>
      ∀ phase ∈ system.phases[index]?, phase.Spares system index now usedAt
  | .redeem .. | .revoke _ | .raise _ => True

instance : (action : Action) → Decidable (Spares system action)
  | .goOn index now usedAt => inferInstanceAs (Decidable (∀ phase ∈ system.phases[index]?,
      phase.Spares system index now usedAt))
  | .redeem .. | .revoke _ | .raise _ => isTrue trivial

/-- Short of its commit a transaction moves alone, from what it goes by to what it then goes by. -/
theorem Sound.goOn_cases (h : Sound database system) {now usedAt : Nat}
    (hphase : system.phases[index]? = some phase)
    (hnext : system.goOn index now usedAt phase = some next) :
    (∃ new, Steps system next index new ∧ (phase.Spares system index now usedAt →
        phase.Keeps system.invites index → new.Keeps next.invites index)) ∨
      (∃ invite, phase = .redeemed invite ∧
        next = system.commit index (system.redemption index invite)) ∨
      ∃ invite, phase = .deleted invite ∧ next = system.commit index [.revoked invite] := by
  cases phase with
  | selecting token userId =>
      rcases h.select_cases hphase hnext with ⟨error, rfl⟩ |
        ⟨invite, row, hdraft, hcommitted, hfind, -, hopen, rfl⟩
      · exact .inl ⟨_, steps_leave, fun _ _ => trivial⟩
      · refine .inl ⟨_, steps_write rfl fun held hheld => ?_, fun htime _ other hother => ?_⟩
        · cases hdraft.symm.trans hheld
        · cases hcommitted.symm.trans hother
          exact htime _ hfind row rfl hopen
  | stamping invite usedAt userId =>
      rcases h.stamp_cases hphase hnext with rfl | ⟨before, effects, hcommitted, -, hmine, rfl⟩
      · exact .inl ⟨_, steps_leave, fun _ _ => trivial⟩
      · refine .inl ⟨_, steps_write rfl hmine, ?_⟩
        intro _ hkeeps draft row stamp hheld _ hrow hstamp
        cases (Function.update_self invite _ _).symm.trans hheld
        cases hrow
        cases hstamp
        exact hkeeps before hcommitted
  | redeemed invite =>
      cases hnext
      exact .inr (.inl ⟨invite, rfl, rfl⟩)
  | reading invite =>
      cases hnext
      rcases h.read_cases hphase with heq | ⟨row, hcommitted, hfree, heq⟩
      · rw [heq]
        exact .inl ⟨_, steps_leave, fun _ _ => trivial⟩
      · rw [heq]
        refine .inl ⟨_, steps_setPhase index (.deleting invite), fun _ _ other hother => ?_⟩
        cases hcommitted.symm.trans hother
        exact hfree
  | deleting invite =>
      rcases h.delete_cases hphase hnext with ⟨-, rfl⟩ | ⟨row, hdraft, -, rfl⟩
      · exact .inl ⟨_, steps_setPhase index _, fun _ hkeeps => hkeeps⟩
      · refine .inl ⟨_, steps_write rfl fun held hheld => ?_, fun _ hkeeps => hkeeps⟩
        cases hdraft.symm.trans hheld
  | deleted invite =>
      cases hnext
      exact .inr (.inr ⟨invite, rfl, rfl⟩)
  | committed | refused | raised => cases hnext

/-- The row of an invite that is redeemed is not that of another transaction on its way: the lock is
held, and no revocation is waiting for it. -/
theorem Sound.kept_redeemed (h : Sound database system) (hkeeps : Kept system)
    (hphase : system.phases[index]? = some (.redeemed invite))
    (hspares : .deleting invite ∉ system.phases) :
    Kept (system.commit index (system.redemption index invite)) := by
  have hcommits := h.commits_redeemed hphase
  obtain ⟨draft, hdraft, rfl, -⟩ := h.holds hphase
  obtain ⟨_, before, -, hcommitted, -, -⟩ := (h.drafts hdraft).phase
  refine hkeeps.commit fun {other found key row} hne hfound hkey hrow => ?_
  by_cases hsame : key = invite
  · subst hsame
    have hheld := h.holds hfound
    cases found with
    | stamping =>
        cases hkey
        obtain ⟨held, hother, rfl, -⟩ := hheld
        cases hdraft.symm.trans hother
        exact absurd rfl hne
    | deleting =>
        cases hkey
        exact absurd (List.mem_of_getElem? hfound) hspares
    | deleted =>
        cases hkey
        rcases hheld with ⟨held, hother, rfl, -⟩ | hgone
        · cases hdraft.symm.trans hother
          exact absurd rfl hne
        · cases hcommitted.symm.trans hgone
    | selecting | redeemed | reading | committed | refused | raised => cases hkey
  · exact (hcommits.elsewhere hsame).symm.trans hrow

theorem Sound.kept_deleted (h : Sound database system) (hkeeps : Kept system)
    (hphase : system.phases[index]? = some (.deleted invite)) :
    Kept (system.commit index [.revoked invite]) := by
  refine hkeeps.commit fun {other found key row} _ _ _ hrow => ?_
  by_cases hsame : key = invite
  · subst hsame
    cases (h.gone hphase).symm.trans hrow
  · exact ((h.commits_deleted hphase).elsewhere hsame).symm.trans hrow

theorem Kept.append (h : Kept system) {new : Phase}
    (hnew : new.Keeps system.invites system.phases.length) :
    Kept { system with phases := system.phases ++ [new] } := by
  intro index phase hphase
  rcases append_phase_cases hphase with hphase | ⟨rfl, rfl⟩
  · exact h index phase hphase
  · exact hnew

/-- Where the law may break: two commits, and what they are of is known. -/
theorem UsedKept.step (h : Sound database system) (hkeeps : Kept system)
    (hkept : UsedKept database system) {action : Action} (hnext : step system action = some next) :
    UsedKept database next := by
  cases action with
  | redeem | revoke =>
      cases hnext
      exact hkept.congr rfl rfl
  | goOn index now usedAt =>
      obtain ⟨phase, hphase, hnext⟩ := Option.bind_eq_some_iff.mp hnext
      rcases h.goOn_cases hphase hnext with ⟨new, hsteps, -⟩ | ⟨invite, rfl, rfl⟩ |
        ⟨invite, rfl, rfl⟩
      · exact hkept.congr hsteps.log hsteps.committed
      · refine h.redeemed_kept hkept hphase fun usedAt expiresAt hentry => ?_
        obtain ⟨draft, hdraft, rfl, hsome⟩ := h.holds hphase
        obtain ⟨row, hrow⟩ := Option.isSome_iff_exists.mp hsome
        have htime := hkeeps _ _ hphase draft row
        simp only [System.redemption, Table.view, hdraft, hrow, if_true, Option.join_some,
          Option.bind_some, Option.mem_toList, Option.map_eq_some_iff] at hentry
        obtain ⟨stamp, hstamp, hsame⟩ := hentry
        cases hsame
        exact htime usedAt hdraft rfl hrow hstamp
      · refine h.deleted_kept hkept hphase ?_
        rintro ⟨row, hrow, hused⟩
        simp [hkeeps _ _ hphase row hrow] at hused
  | raise index =>
      obtain ⟨phase, -, -, rfl⟩ := raise_cases hnext
      exact hkept.congr rfl rfl

theorem Kept.step (h : Sound database system) (hkeeps : Kept system) {action : Action}
    (hspares : Spares system action) (hnext : step system action = some next) : Kept next := by
  cases action with
  | redeem | revoke =>
      cases hnext
      exact hkeeps.append trivial
  | goOn index now usedAt =>
      obtain ⟨phase, hphase, hnext⟩ := Option.bind_eq_some_iff.mp hnext
      have hspared := hspares phase hphase
      rcases h.goOn_cases hphase hnext with ⟨new, hsteps, hnew⟩ | ⟨invite, rfl, rfl⟩ |
        ⟨invite, rfl, rfl⟩
      · exact hkeeps.steps hsteps (hnew hspared (hkeeps _ _ hphase))
      · exact h.kept_redeemed hkeeps hphase hspared
      · exact h.kept_deleted hkeeps hphase
  | raise index =>
      obtain ⟨phase, -, -, rfl⟩ := raise_cases hnext
      exact hkeeps.steps steps_leave trivial

/-- **Used invites are kept** in every state that is reached by steps that spare them. -/
theorem used_invites_kept (database : Database) (hreach : Reach step Spares database.start system) :
    UsedKept database system := by
  have hall := hreach.invariant (fun system =>
      Sound database system ∧ Kept system ∧ UsedKept database system)
    ⟨sound_start database, kept_start database, usedKept_start database⟩
    fun before action after hbefore hspares hnext => by
      obtain ⟨hsound, hkeeps, hkept⟩ := hbefore
      exact ⟨hsound.step hnext, hkeeps.step hsound hspares hnext, hkept.step hsound hkeeps hnext⟩
  exact hall.2.2

/-- One invite that nobody has used. -/
def oneInvite : Database where
  invites key := if key = 1 then some ⟨"ticket", 1000, none, none⟩ else none
  next := 2
  below _ hkey := if_neg (Nat.lt_of_lt_of_le (by decide) hkey).ne'

/-- The invite is redeemed; whoever revokes it afterwards finds it used. -/
def redeemedFirst : List Action :=
  [.redeem "ticket" 7, .goOn 0 5 6, .goOn 0 7 7, .goOn 0 8 8, .revoke 1, .goOn 1 9 9]

theorem used_invites_kept_executed :
    ∃ system, run step oneInvite.start redeemedFirst = some system ∧ UsedKept oneInvite system := by
  have hdefined : (run step oneInvite.start redeemedFirst).isSome = true := by decide +kernel
  obtain ⟨system, hrun⟩ := Option.isSome_iff_exists.mp hdefined
  exact ⟨system, hrun, used_invites_kept oneInvite
    (Transition.reach_of_run hrun (by decide +kernel))⟩

/-- The invite is redeemed between the read of a revocation and its `DELETE`. -/
theorem redeemed_invite_deleted :
    (run step oneInvite.start
      [.revoke 1, .goOn 0 4 4, .redeem "ticket" 7, .goOn 1 5 6, .goOn 1 7 7, .goOn 1 8 8,
        .goOn 0 9 9, .goOn 0 10 10]).any (fun system =>
      system.log = [.redeemed 1 6 1000, .revoked 1] &&
        system.phases = [.committed, .committed] &&
        system.invites.committed 1 = some none) = true := by
  decide +kernel

end CodexServer.Invites
