import CodexServer.Registration
import CodexServer.Library.Fallible

/-!
# An email is registered once

A call writes one user and one invite, and only the call that writes a row has a version of it that
is not committed. A password that is there when a call sets its own was committed after the call had
looked for it.
-/

open Versioned

namespace CodexServer.Registration

open Transition (run RunAllowed)

variable {system next : System} {index : Nat} {call new : Call} {env : Env}

/-! ### What a call has in hand -/

/-- The user that a call writes. -/
def Phase.target : Phase → Option Nat
  | redeeming user _ | spending user _ | hashing user _ | setting user _ _ => some user.id
  | committing user _ => some user
  | lookup | inserting | selecting | finishing | returned | raised _ => none

/-- The invite that a call has locked. -/
def Phase.invite : Phase → Option Nat
  | spending _ key => some key
  | hashing _ invite | setting _ invite _ | committing _ invite => invite
  | lookup | inserting | selecting | redeeming _ _ | finishing | returned | raised _ => none

/-- It has redeemed the invite. -/
def Phase.spent : Phase → Bool
  | hashing _ _ | setting _ _ _ | committing _ _ => true
  | _ => false

/-- It has looked its email up, and has not committed. -/
def Phase.looked : Phase → Bool
  | lookup | finishing | returned | raised _ => false
  | _ => true

/-- It has committed, or raised. -/
def Phase.settled : Phase → Bool
  | finishing | returned | raised _ => true
  | _ => false

@[simp]
theorem target_loaded (user : Loaded) : (call.loaded user).phase.target = some user.id := by
  unfold Call.loaded
  cases call.inviteToken <;> rfl

@[simp]
theorem invite_loaded (user : Loaded) : (call.loaded user).phase.invite = none := by
  unfold Call.loaded
  cases call.inviteToken <;> rfl

theorem loaded_ne_committing (user : Loaded) (id : Nat) (invite : Option Nat) :
    (call.loaded user).phase ≠ .committing id invite := by
  unfold Call.loaded
  cases call.inviteToken <;> simp

theorem loaded_ne_setting (user other : Loaded) (invite : Option Nat) (hash : String) :
    (call.loaded user).phase ≠ .setting other invite hash := by
  unfold Call.loaded
  cases call.inviteToken <;> simp

@[simp]
theorem settled_loaded (user : Loaded) : (call.loaded user).phase.settled = false := by
  unfold Call.loaded
  cases call.inviteToken <;> rfl

/-! ### The indexes -/

theorem users_stays (statement : UserUpdate) (before row : UserRow) (effect : Unit)
    (h : users.update statement before = some (row, effect)) :
    (users.live row = true → users.live before = true) ∧ users.group row = users.group before := by
  cases h
  exact ⟨fun hlive => hlive, rfl⟩

theorem invites_stays (statement : InviteUpdate) (before row : InviteRow) (effect : Unit)
    (h : invites.update statement before = some (row, effect)) :
    (invites.live row = true → invites.live before = true) ∧
      invites.group row = invites.group before := by
  cases h
  cases statement <;> exact ⟨fun _ => rfl, rfl⟩

theorem covers_email {row : UserRow} {email : String} (h : row.email = some email) :
    users.covers (some email) row = true :=
  Schema.covers_iff.mpr ⟨show row.email.isSome = true by rw [h]; rfl, h⟩

/-! ### The invariant -/

/-- What a call can rely on. -/
structure CallSound (system : System) (index : Nat) (call : Call) : Prop where
  target : ∀ {key}, call.phase.target = some key →
    ∃ row, system.users.view index key = some row ∧ row.email = some call.email
  written : ∀ {key invite}, call.phase = .committing key invite →
    ∃ draft, system.users.draft key = some draft ∧ draft.owner = index ∧
      draft.row.hasPassword = true
  seen : call.seen ≤ system.log.length ∧ (call.phase.looked = true →
    ∀ key row, system.users.committed key = some row → row.email = some call.email →
      row.hasPassword = true → ∃ done ∈ system.log.drop call.seen, done.email = call.email)
  hash : ∀ {user invite passwordHash}, call.phase = .setting user invite passwordHash →
    passwordHash ≠ ""
  invite : ∀ {key}, call.phase.invite = some key → ∃ draft row,
    system.invites.draft key = some draft ∧ draft.owner = index ∧
      system.invites.committed key = some row ∧ row.usedAt = none ∧
      draft.row.token = row.token ∧ (call.phase.spent = true → draft.row.usedAt.isSome = true)

/-- What a commit has left in the tables. -/
structure RegisteredSound (system : System) (done : Registered) : Prop where
  user : ∃ row, system.users.committed done.user = some row ∧ row.email = some done.email ∧
    row.hasPassword = true
  invite : ∀ {redeemed}, done.redeemed = some redeemed → ∃ key row,
    system.invites.committed key = some row ∧ row.token = redeemed.token ∧
      row.usedAt.isSome = true
  author : ∃ call, system.calls[done.call]? = some call ∧ call.phase.settled = true

/-- The tables that a list of commits makes of others. -/
def usersAfter (database : Database) (log : List Registered) : Nat → Option UserRow :=
  log.foldl (fun rows done => Function.update rows done.user done.after) database.users

def invitesAfter (database : Database) (log : List Registered) : Nat → Option InviteRow :=
  log.foldl (fun rows done => done.invite.elim rows fun key =>
    Function.update rows key done.redeemed) database.invites

structure Sound (database : Database) (system : System) : Prop where
  usersIndexed : Schema.Indexed users system.users
  invitesIndexed : Schema.Indexed invites system.invites
  calls : ∀ {index : Nat} {call}, system.calls[index]? = some call → CallSound system index call
  log : ∀ {done}, done ∈ system.log → RegisteredSound system done
  finished : ∀ {index : Nat} {call}, system.calls[index]? = some call → call.phase = .finishing →
    ∃ done ∈ system.log, done.call = index
  kept : ∀ {key draft row}, system.users.draft key = some draft →
    system.users.committed key = some row → draft.row.email = row.email ∧
      (row.hasPassword = true → draft.row.hasPassword = true)
  userDraft : ∀ {key draft}, system.users.draft key = some draft →
    ∃ call, system.calls[draft.owner]? = some call ∧ call.phase.target = some key
  inviteDraft : ∀ {key draft}, system.invites.draft key = some draft →
    ∃ call, system.calls[draft.owner]? = some call ∧ call.phase.invite = some key
  usersReplay : system.users.committed = usersAfter database system.log
  invitesReplay : system.invites.committed = invitesAfter database system.log

theorem sound_start (database : Database) : Sound database database.start where
  usersIndexed := by
    refine ⟨fun key hkey => ⟨database.usersBelow key hkey, rfl⟩, ?_, (fun h => by cases h),
      (fun _ h => by cases h)⟩
    intro group key other row otherRow hrow hother hcovers hcoversOther
    obtain ⟨hlive, hgroup⟩ := Schema.covers_iff.mp hcovers
    exact database.emailUnique hrow hother hlive
      (hgroup.trans (Schema.covers_iff.mp hcoversOther).2.symm)
  invitesIndexed := by
    refine ⟨fun key hkey => ⟨database.invitesBelow key hkey, rfl⟩, ?_, (fun h => by cases h),
      (fun _ h => by cases h)⟩
    intro group key other row otherRow hrow hother hcovers hcoversOther
    exact database.tokenUnique hrow hother ((Schema.covers_iff.mp hcovers).2.trans
      (Schema.covers_iff.mp hcoversOther).2.symm)
  calls h := by simp [Database.start] at h
  log h := by simp [Database.start] at h
  finished h := by simp [Database.start] at h
  kept h := by cases h
  userDraft h := by cases h
  inviteDraft h := by cases h
  usersReplay := rfl
  invitesReplay := rfl

/-! ### A step that commits nothing -/

/-- The tables after a step of one call: what is committed is as it was, and so are the versions
that other calls write. -/
structure Steps (system next : System) (index : Nat) (new : Call) : Prop where
  calls : next.calls = system.calls.set index new
  log : next.log = system.log
  usersIndexed : Schema.Indexed users next.users
  invitesIndexed : Schema.Indexed invites next.invites
  usersKept : next.users.committed = system.users.committed
  invitesKept : next.invites.committed = system.invites.committed
  userDrafts : ∀ key draft, draft.owner ≠ index →
    (next.users.draft key = some draft ↔ system.users.draft key = some draft)
  inviteDrafts : ∀ key draft, draft.owner ≠ index →
    (next.invites.draft key = some draft ↔ system.invites.draft key = some draft)
  userDraft : ∀ {key draft}, next.users.draft key = some draft → draft.owner = index →
    new.phase.target = some key ∧ ∀ row, system.users.committed key = some row →
      draft.row.email = row.email ∧ (row.hasPassword = true → draft.row.hasPassword = true)
  inviteDraft : ∀ {key draft}, next.invites.draft key = some draft → draft.owner = index →
    new.phase.invite = some key

/-- What another call sees is as it was. -/
theorem Steps.view (h : Steps system next index new) {other : Nat} (hne : other ≠ index)
    (key : Nat) : next.users.view other key = system.users.view other key := by
  have hmine : ∀ table : Table Nat UserRow Unit, table.view other key =
      ((table.draft key).filter fun draft => draft.owner = other).elim (table.committed key)
        fun draft => some draft.row := by
    intro table
    unfold Table.view
    cases hdraft : table.draft key with
    | none => rfl
    | some draft => by_cases howner : draft.owner = other <;> simp [Option.filter, howner]
  have hdrafts : (next.users.draft key).filter (fun draft => draft.owner = other) =
      (system.users.draft key).filter fun draft => draft.owner = other := by
    ext draft
    simp only [Option.filter_eq_some_iff, decide_eq_true_eq]
    constructor
    · rintro ⟨hdraft, rfl⟩
      exact ⟨(h.userDrafts key draft hne).mp hdraft, rfl⟩
    · rintro ⟨hdraft, rfl⟩
      exact ⟨(h.userDrafts key draft hne).mpr hdraft, rfl⟩
  rw [hmine, hmine, hdrafts, h.usersKept]

theorem Steps.others (h : Steps system next index new) {other : Nat} (hne : other ≠ index)
    (hsound : CallSound system other call) : CallSound next other call where
  target htarget := by
    rw [h.view hne]
    exact hsound.target htarget
  written hphase := by
    obtain ⟨draft, hdraft, rfl, hpassword⟩ := hsound.written hphase
    exact ⟨draft, (h.userDrafts _ draft hne).mpr hdraft, rfl, hpassword⟩
  seen := by
    rw [h.log, h.usersKept]
    exact hsound.seen
  hash := hsound.hash
  invite hphase := by
    obtain ⟨draft, row, hdraft, rfl, hrest⟩ := hsound.invite hphase
    rw [h.invitesKept]
    exact ⟨draft, row, (h.inviteDrafts _ draft hne).mpr hdraft, rfl, hrest⟩

theorem Sound.steps {database : Database} (hsound : Sound database system)
    (hcall : system.calls[index]? = some call) (h : Steps system next index new)
    (hnew : CallSound next index new) (hfinishing : new.phase ≠ .finishing)
    (hsettled : call.phase.settled = true → new.phase.settled = true) : Sound database next := by
  have hlt : index < system.calls.length := (List.getElem?_eq_some_iff.mp hcall).1
  have hself : next.calls[index]? = some new := by
    rw [h.calls, List.getElem?_set_self hlt]
  have hother : ∀ {other}, other ≠ index → next.calls[other]? = system.calls[other]? := by
    intro other hne
    rw [h.calls, List.getElem?_set_ne hne.symm]
  have hcases : ∀ {other : Nat} {found}, next.calls[other]? = some found →
      (other = index ∧ found = new) ∨ (other ≠ index ∧ system.calls[other]? = some found) := by
    intro other found hfound
    by_cases heq : other = index
    · subst heq
      exact .inl ⟨rfl, Option.some.inj (hfound.symm.trans hself)⟩
    · exact .inr ⟨heq, (hother heq).symm.trans hfound⟩
  refine ⟨h.usersIndexed, h.invitesIndexed, ?calls, ?log,
    ?finished, ?kept, ?userDraft, ?inviteDraft, ?usersReplay, ?invitesReplay⟩
  case calls =>
    intro other found hfound
    rcases hcases hfound with ⟨rfl, rfl⟩ | ⟨hne, hfound⟩
    · exact hnew
    · exact h.others hne (hsound.calls hfound)
  case log =>
    intro done hmem
    rw [h.log] at hmem
    obtain ⟨huser, hinvite, author, hauthor, hdone⟩ := hsound.log hmem
    refine ⟨by rwa [h.usersKept], by rwa [h.invitesKept], ?_⟩
    by_cases heq : done.call = index
    · rw [heq] at hauthor ⊢
      cases hcall.symm.trans hauthor
      exact ⟨new, hself, hsettled hdone⟩
    · exact ⟨author, (hother heq).trans hauthor, hdone⟩
  case finished =>
    intro other found hfound hphase
    rcases hcases hfound with ⟨rfl, rfl⟩ | ⟨_, hfound⟩
    · exact absurd hphase hfinishing
    · rw [h.log]
      exact hsound.finished hfound hphase
  case kept =>
    intro key draft row hdraft hrow
    rw [h.usersKept] at hrow
    by_cases howner : draft.owner = index
    · exact (h.userDraft hdraft howner).2 row hrow
    · exact hsound.kept ((h.userDrafts key draft howner).mp hdraft) hrow
  case userDraft =>
    intro key draft hdraft
    by_cases howner : draft.owner = index
    · rw [howner]
      exact ⟨new, hself, (h.userDraft hdraft howner).1⟩
    · rw [hother howner]
      exact hsound.userDraft ((h.userDrafts key draft howner).mp hdraft)
  case inviteDraft =>
    intro key draft hdraft
    by_cases howner : draft.owner = index
    · rw [howner]
      exact ⟨new, hself, h.inviteDraft hdraft howner⟩
    · rw [hother howner]
      exact hsound.inviteDraft ((h.inviteDrafts key draft howner).mp hdraft)
  case usersReplay => rw [h.usersKept, h.log, hsound.usersReplay]
  case invitesReplay => rw [h.invitesKept, h.log, hsound.invitesReplay]

theorem Sound.mine {database : Database} (hsound : Sound database system)
    (hcall : system.calls[index]? = some call) {key : Nat} {draft : Draft Nat UserRow Unit}
    (hdraft : system.users.draft key = some draft) (howner : draft.owner = index) :
    call.phase.target = some key := by
  obtain ⟨author, hauthor, htarget⟩ := hsound.userDraft hdraft
  rw [howner] at hauthor
  cases hcall.symm.trans hauthor
  exact htarget

theorem Sound.myInvite {database : Database} (hsound : Sound database system)
    (hcall : system.calls[index]? = some call) {key : Nat} {draft : Draft Nat InviteRow Unit}
    (hdraft : system.invites.draft key = some draft) (howner : draft.owner = index) :
    call.phase.invite = some key := by
  obtain ⟨author, hauthor, hinvite⟩ := hsound.inviteDraft hdraft
  rw [howner] at hauthor
  cases hcall.symm.trans hauthor
  exact hinvite

/-- A call goes on, and leaves the tables as they are. -/
theorem Sound.setCall {database : Database} (hsound : Sound database system)
    (hcall : system.calls[index]? = some call)
    (htarget : ∀ key, call.phase.target = some key → new.phase.target = some key)
    (hinvite : ∀ key, call.phase.invite = some key → new.phase.invite = some key)
    (hnew : CallSound system index new) (hfinishing : new.phase ≠ .finishing)
    (hsettled : call.phase.settled = true → new.phase.settled = true) :
    Sound database (system.setCall index new) := by
  refine hsound.steps hcall ⟨rfl, rfl, hsound.usersIndexed, hsound.invitesIndexed, rfl, rfl,
    fun _ _ _ => Iff.rfl, fun _ _ _ => Iff.rfl, ?_, ?_⟩
    ⟨hnew.target, hnew.written, hnew.seen, hnew.hash, hnew.invite⟩ hfinishing hsettled
  · intro key draft hdraft howner
    exact ⟨htarget key (hsound.mine hcall hdraft howner), fun _ => hsound.kept hdraft⟩
  · intro key draft hdraft howner
    exact hinvite key (hsound.myInvite hcall hdraft howner)

theorem Sound.raise {database : Database} (hsound : Sound database system)
    (hcall : system.calls[index]? = some call) {found : Call}
    (hfound : found.seen ≤ system.log.length) (error : Option ConnectError) :
    Sound database (system.raise index found error) := by
  have hrollback : ∀ {Row : Type} (table : Table Nat Row Unit) (key : Nat) (draft),
      (table.rollback index).draft key = some draft ↔
        table.draft key = some draft ∧ draft.owner ≠ index := by
    intro Row table key draft
    simp [Table.rollback, Option.filter_eq_some_iff]
  have hsteps : Steps system (system.raise index found error) index
      { found with phase := .raised error } := by
    refine ⟨rfl, rfl, hsound.usersIndexed.moves users_stays (.rollback index _ le_rfl),
      hsound.invitesIndexed.moves invites_stays (.rollback index _ le_rfl), rfl, rfl, ?_, ?_, ?_, ?_⟩
    · intro key draft hne
      exact (hrollback system.users key draft).trans (and_iff_left hne)
    · intro key draft hne
      exact (hrollback system.invites key draft).trans (and_iff_left hne)
    · intro key draft hdraft howner
      exact absurd howner ((hrollback system.users key draft).mp hdraft).2
    · intro key draft hdraft howner
      exact absurd howner ((hrollback system.invites key draft).mp hdraft).2
  refine hsound.steps hcall hsteps ⟨?_, ?_, ⟨hfound, ?_⟩, ?_, ?_⟩ ?_ fun _ => rfl
  · intro key htarget
    cases htarget
  · intro key invite hphase
    cases hphase
  · intro hlooked
    cases hlooked
  · intro user invite passwordHash hphase
    cases hphase
  · intro key hinvite
    cases hinvite
  · intro hphase
    cases hphase

/-! ### The statements -/

theorem findByEmail_some {user : Loaded} (h : system.findByEmail index call = some user) :
    system.users.view index user.id = some user.row ∧ user.row.email = some call.email := by
  obtain ⟨⟨id, row⟩, hfound, rfl⟩ := Option.map_eq_some_iff.mp h
  obtain ⟨hview, hemail⟩ := Table.find?_some hfound
  exact ⟨hview, by simpa using hemail⟩

/-- A call that writes no user sees what is committed. -/
theorem Sound.view_committed {database : Database} (hsound : Sound database system)
    (hcall : system.calls[index]? = some call) (htarget : call.phase.target = none) (key : Nat) :
    system.users.view index key = system.users.committed key := by
  refine Table.view_of_foreign fun draft hdraft howner => ?_
  cases htarget.symm.trans (hsound.mine hcall hdraft howner)

/-- A call that has its user goes on with it. -/
theorem CallSound.loaded {user : Loaded} {found : Call}
    (hview : system.users.view index user.id = some user.row)
    (hemail : user.row.email = some found.email)
    (hseen : found.seen ≤ system.log.length ∧
      ∀ key row, system.users.committed key = some row → row.email = some found.email →
        row.hasPassword = true → ∃ done ∈ system.log.drop found.seen, done.email = found.email) :
    CallSound system index (found.loaded user) where
  target htarget := by
    rw [target_loaded] at htarget
    cases htarget
    exact ⟨user.row, hview, hemail⟩
  written hphase := absurd hphase (loaded_ne_committing _ _ _)
  seen := ⟨hseen.1, fun _ => hseen.2⟩
  hash hphase := absurd hphase (loaded_ne_setting _ _ _ _)
  invite hinvite := by
    rw [invite_loaded] at hinvite
    cases hinvite

theorem loaded_ne_finishing (user : Loaded) : (call.loaded user).phase ≠ .finishing := by
  unfold Call.loaded
  cases call.inviteToken <;> simp

theorem Sound.lookup {database : Database} (hsound : Sound database system)
    (hcall : system.calls[index]? = some call) (hphase : call.phase = .lookup) :
    Sound database (system.lookup index call) := by
  have htarget : call.phase.target = none := by rw [hphase]; rfl
  have hinvite : call.phase.invite = none := by rw [hphase]; rfl
  have hview := hsound.view_committed hcall htarget
  unfold System.lookup
  cases hfound : system.findByEmail index call with
  | some user =>
      obtain ⟨hrow, hemail⟩ := findByEmail_some hfound
      simp only
      split
      case isTrue => exact hsound.raise hcall (le_refl _) _
      case isFalse hpassword =>
          refine hsound.setCall hcall (by simp [htarget]) (by simp [hinvite])
            (CallSound.loaded hrow hemail ⟨le_refl _, ?_⟩) (loaded_ne_finishing _)
            (by simp [hphase, Phase.settled])
          intro key row hcommitted hrowEmail hrowPassword
          rw [hview] at hrow
          have heq : key = user.id :=
            hsound.usersIndexed.exclusive.committed hcommitted hrow
              (covers_email hrowEmail) (covers_email hemail)
          subst heq
          cases hcommitted.symm.trans hrow
          exact absurd hrowPassword hpassword
  | none =>
      refine hsound.setCall hcall (by simp [htarget]) (by simp [hinvite])
        ⟨(fun hkey => by cases hkey), (fun hkey => by cases hkey), ⟨le_refl _, ?_⟩,
          (fun hkey => by cases hkey), (fun hkey => by cases hkey)⟩ (by simp)
        (by simp [hphase, Phase.settled])
      intro _ key row hcommitted hrowEmail _
      have hlt : key < system.users.nextId := by
        by_contra hge
        cases hcommitted.symm.trans (hsound.usersIndexed.fresh key (not_lt.mp hge)).1
      have hmissed := Table.find?_none (Option.map_eq_none_iff.mp hfound) hlt
        ((hview key).trans hcommitted)
      simp [hrowEmail] at hmissed

theorem Sound.select {database : Database} (hsound : Sound database system)
    (hcall : system.calls[index]? = some call) (hphase : call.phase = .selecting) :
    Sound database (system.select index call) := by
  have hmine := hsound.calls hcall
  unfold System.select
  cases hfound : system.findByEmail index call with
  | some user =>
      obtain ⟨hrow, hemail⟩ := findByEmail_some hfound
      exact hsound.setCall hcall (by simp [hphase, Phase.target]) (by simp [hphase, Phase.invite])
        (CallSound.loaded hrow hemail ⟨hmine.seen.1, hmine.seen.2 (by rw [hphase]; rfl)⟩)
        (loaded_ne_finishing _) (by simp [hphase, Phase.settled])
  | none => exact hsound.raise hcall hmine.seen.1 _

/-- A call writes a version of a user, and of no other. -/
theorem Sound.writeUser {database : Database} (hsound : Sound database system)
    (hcall : system.calls[index]? = some call) {key nextId : Nat} {row : UserRow}
    {effects : List Unit}
    (hindexed : Schema.Indexed users
      { system.users.write key ⟨index, row, effects⟩ with nextId := nextId })
    (hfree : ∀ draft, system.users.draft key = some draft → draft.owner = index)
    (htarget : new.phase.target = some key)
    (hsame : ∀ other, call.phase.target = some other → other = key)
    (hinvite : ∀ other, call.phase.invite = some other → new.phase.invite = some other)
    (hkept : ∀ before, system.users.committed key = some before →
      row.email = before.email ∧ (before.hasPassword = true → row.hasPassword = true))
    (hnew : CallSound { system.setCall index new with
      users := { system.users.write key ⟨index, row, effects⟩ with nextId := nextId } } index new)
    (hfinishing : new.phase ≠ .finishing)
    (hsettled : call.phase.settled = true → new.phase.settled = true) :
    Sound database { system.setCall index new with
      users := { system.users.write key ⟨index, row, effects⟩ with nextId := nextId } } := by
  refine hsound.steps hcall ⟨rfl, rfl, hindexed, hsound.invitesIndexed, rfl, rfl, ?_,
    fun _ _ _ => Iff.rfl, ?_, ?_⟩ hnew hfinishing hsettled
  · intro other draft hne
    by_cases heq : other = key
    · subst heq
      constructor
      · intro hdraft
        rcases Table.draft_write_cases hdraft with ⟨_, rfl⟩ | ⟨hother, _⟩
        · exact absurd rfl hne
        · exact absurd rfl hother
      · intro hdraft
        exact absurd (hfree draft hdraft) hne
    · simp [Table.write, heq]
  · intro other draft hdraft howner
    rcases Table.draft_write_cases hdraft with ⟨rfl, rfl⟩ | ⟨hne, hdraft⟩
    · exact ⟨htarget, hkept⟩
    · exact absurd (hsame other (hsound.mine hcall hdraft howner)) hne
  · intro other draft hdraft howner
    exact hinvite other (hsound.myInvite hcall hdraft howner)

theorem view_write (table : Table Nat UserRow Unit) (key nextId : Nat) (row : UserRow)
    (effects : List Unit) :
    ({ table.write key ⟨index, row, effects⟩ with nextId := nextId } : Table _ _ _).view index key =
      some row := by
  simp [Table.view, Table.write]

theorem Sound.insert {database : Database} (hsound : Sound database system)
    (hcall : system.calls[index]? = some call) (hphase : call.phase = .inserting)
    (hnext : system.insert index call = some next) : Sound database next := by
  have hmine := hsound.calls hcall
  have hseen := hmine.seen.2 (by rw [hphase]; rfl)
  unfold System.insert at hnext
  split at hnext
  case h_1 id table hinsert =>
      cases hnext
      rcases users.execInsertOrNothing_cases hinsert with ⟨hnone, _⟩ | ⟨hid, hfree, rfl⟩
      · cases hnone
      · cases hid
        obtain ⟨hcommitted, hdraft⟩ := hsound.usersIndexed.fresh _ (le_refl system.users.nextId)
        refine hsound.writeUser hcall (hsound.usersIndexed.moves users_stays
            (.insert index ⟨call.email, call.displayName⟩ _ _ rfl (fun key hkey => (hfree key hkey).1)
              fun key hkey => (hfree key hkey).2))
          (fun draft hold => by cases hdraft.symm.trans hold) (target_loaded _)
          (fun other hother => by simp [hphase, Phase.target] at hother)
          (fun other hother => by simp [hphase, Phase.invite] at hother)
          (fun before hbefore => by cases hcommitted.symm.trans hbefore)
          (CallSound.loaded (view_write _ _ _ _ _) rfl ⟨hmine.seen.1, hseen⟩)
          (loaded_ne_finishing _) (by simp [hphase, Phase.settled])
  case h_2 table hinsert =>
      cases hnext
      rcases users.execInsertOrNothing_cases hinsert with ⟨_, rfl⟩ | ⟨hid, _⟩
      · refine hsound.steps hcall (?_ : Steps system _ index { call with phase := .selecting })
          ⟨(fun hkey => by cases hkey), (fun hkey => by cases hkey),
            ⟨hmine.seen.1, fun _ => hseen⟩, (fun hkey => by cases hkey),
            (fun hkey => by cases hkey)⟩
          (by simp) (by simp [hphase, Phase.settled])
        refine ⟨rfl, rfl, hsound.usersIndexed.skip (Nat.le_succ _), hsound.invitesIndexed, rfl, rfl,
          fun _ _ _ => Iff.rfl, fun _ _ _ => Iff.rfl, ?_, ?_⟩
        · intro key draft hdraft howner
          have hkey := hsound.mine hcall hdraft howner
          simp [hphase, Phase.target] at hkey
        · intro key draft hdraft howner
          have hkey := hsound.myInvite hcall hdraft howner
          simp [hphase, Phase.invite] at hkey
      · cases hid
  case h_3 => cases hnext

theorem Sound.setPasswordHash {database : Database} (hsound : Sound database system)
    (hcall : system.calls[index]? = some call) {user : Loaded} {invite : Option Nat}
    {passwordHash : String} (hphase : call.phase = .setting user invite passwordHash)
    (hnext : system.setPasswordHash index call user invite passwordHash = some next) :
    Sound database next := by
  have hmine := hsound.calls hcall
  have hseen := hmine.seen.2 (by rw [hphase]; rfl)
  have hpassword := hmine.hash hphase
  obtain ⟨seen, hview, hemail⟩ := hmine.target (show call.phase.target = some user.id by rw [hphase]; rfl)
  unfold System.setPasswordHash at hnext
  split at hnext
  case h_1 => cases hnext
  case h_3 =>
      cases hnext
      exact hsound.raise hcall hmine.seen.1 _
  case h_2 table hupdate =>
      cases hnext
      have hmoves := users.execUpdate_moves hupdate
      -- Whichever version it is made from, the new one is of the same email.
      have hwrite : ∀ (before row : UserRow) (effects : List Unit),
          table = system.users.write user.id ⟨index, row, effects⟩ →
          users.update (System.changes call user passwordHash) before = some (row, ()) →
          before.email = some call.email →
          (∀ draft, system.users.draft user.id = some draft → draft.owner = index) →
          (∀ committed, system.users.committed user.id = some committed →
            before.email = committed.email) →
          Sound database { system.setCall index { call with
            phase := .committing user.id invite } with users := table } := by
        rintro before row effects rfl hrow hbefore hfree hkept
        cases hrow
        refine hsound.writeUser hcall (hsound.usersIndexed.moves users_stays hmoves) hfree rfl
          (fun other hother => by simpa [hphase, Phase.target, eq_comm] using hother)
          (fun other hother => by simpa [hphase, Phase.invite] using hother)
          (fun committed hcommitted => ⟨hkept committed hcommitted, fun _ => ?_⟩)
          ⟨?_, ?_, ⟨hmine.seen.1, fun _ => hseen⟩, (fun hkey => by cases hkey), ?_⟩ (by simp)
          (by simp [hphase, Phase.settled])
        · simpa [UserRow.hasPassword, System.changes] using hpassword
        · intro key hkey
          cases hkey
          exact ⟨_, view_write _ _ _ _ _, hbefore⟩
        · intro key held hkey
          cases hkey
          exact ⟨_, Function.update_self .., rfl, by
            simpa [UserRow.hasPassword, System.changes] using hpassword⟩
        · intro key hkey
          obtain ⟨draft, held, hdraft, howner, hheld, hunused, htoken, hspent⟩ :=
            hmine.invite (show call.phase.invite = some key by rw [hphase]; exact hkey)
          exact ⟨draft, held, hdraft, howner, hheld, hunused, htoken, fun _ =>
            hspent (by rw [hphase]; rfl)⟩
      rcases users.execUpdate_cases hupdate with ⟨hfalse, _⟩ |
        ⟨draft, row, effect, _, hdraft, howner, hrow, htable⟩ |
        ⟨before, row, effect, _, hdraft, hbefore, hrow, htable⟩
      · cases hfalse
      · refine hwrite draft.row row _ htable hrow ?_ (fun other hother => ?_)
          fun committed hcommitted => (hsound.kept hdraft hcommitted).1
        · simp only [Table.view, hdraft, howner, if_true, Option.some.injEq] at hview
          rw [hview, hemail]
        · cases hdraft.symm.trans hother
          exact howner
      · refine hwrite before row _ htable hrow ?_ (fun other hother => ?_)
          fun committed hcommitted => ?_
        · simp only [Table.view, hdraft, hbefore, Option.some.injEq] at hview
          rw [hview, hemail]
        · cases hdraft.symm.trans hother
        · cases hbefore.symm.trans hcommitted
          rfl

/-- A call writes a version of an invite, and of no other. -/
theorem Sound.writeInvite {database : Database} (hsound : Sound database system)
    (hcall : system.calls[index]? = some call) {key : Nat} {row held : InviteRow}
    {effects : List Unit}
    (hindexed : Schema.Indexed invites (system.invites.write key ⟨index, row, effects⟩))
    (hfree : ∀ draft, system.invites.draft key = some draft → draft.owner = index)
    (hinvite : new.phase.invite = some key)
    (hsame : ∀ other, call.phase.invite = some other → other = key)
    (htarget : new.phase.target = call.phase.target) (hemail : new.email = call.email)
    (hseen : new.seen = call.seen) (hlooked : call.phase.looked = true)
    (hheld : system.invites.committed key = some held) (hunused : held.usedAt = none)
    (htoken : row.token = held.token)
    (hspent : new.phase.spent = true → row.usedAt.isSome = true)
    (hcommitting : ∀ user other, new.phase ≠ .committing user other)
    (hsetting : ∀ user other hash, new.phase ≠ .setting user other hash)
    (hfinishing : new.phase ≠ .finishing) (hsettled : call.phase.settled = false) :
    Sound database { system.setCall index new with
      invites := system.invites.write key ⟨index, row, effects⟩ } := by
  have hmine := hsound.calls hcall
  refine hsound.steps hcall ⟨rfl, rfl, hsound.usersIndexed, hindexed, rfl, rfl,
    fun _ _ _ => Iff.rfl, ?_, ?_, ?_⟩ ⟨?_, ?_, ?_, ?_, ?_⟩ hfinishing (by simp [hsettled])
  · intro other draft hne
    by_cases heq : other = key
    · subst heq
      constructor
      · intro hdraft
        rcases Table.draft_write_cases hdraft with ⟨_, rfl⟩ | ⟨hother, _⟩
        · exact absurd rfl hne
        · exact absurd rfl hother
      · intro hdraft
        exact absurd (hfree draft hdraft) hne
    · simp [Table.write, heq]
  · intro other draft hdraft howner
    exact ⟨htarget.trans (hsound.mine hcall hdraft howner), fun _ => hsound.kept hdraft⟩
  · intro other draft hdraft howner
    rcases Table.draft_write_cases hdraft with ⟨rfl, rfl⟩ | ⟨hne, hdraft⟩
    · exact hinvite
    · exact absurd (hsame other (hsound.myInvite hcall hdraft howner)) hne
  · intro other hother
    rw [hemail]
    exact hmine.target (htarget.symm.trans hother)
  · intro user other hphase
    exact absurd hphase (hcommitting user other)
  · rw [hseen, hemail]
    exact ⟨hmine.seen.1, fun _ => hmine.seen.2 hlooked⟩
  · intro user other hash hphase
    exact absurd hphase (hsetting user other hash)
  · intro other hother
    cases hinvite.symm.trans hother
    exact ⟨_, held, Function.update_self .., rfl, hheld, hunused, htoken, hspent⟩

theorem Sound.redeem {database : Database} (hsound : Sound database system)
    (hcall : system.calls[index]? = some call) {user : Loaded} {token : String} {now : Nat}
    (hphase : call.phase = .redeeming user token)
    (hnext : system.redeem index call user token now = some next) : Sound database next := by
  have hmine := hsound.calls hcall
  have hraise : ∀ error, Sound database (system.raise index call error) :=
    fun error => hsound.raise hcall hmine.seen.1 error
  unfold System.redeem at hnext
  split at hnext
  case h_1 =>
      cases hnext
      exact hraise _
  case h_2 key _ _ =>
      split at hnext
      case h_1 => cases hnext
      case h_2 changed table hlock =>
          split at hnext
          case h_1 =>
              cases hnext
              exact hraise _
          case h_2 invite hview =>
              split at hnext
              case isTrue =>
                  cases hnext
                  exact hraise _
              case isFalse hunused =>
                  split at hnext
                  case isTrue =>
                      cases hnext
                      exact hraise _
                  case isFalse =>
                      cases hnext
                      have hnone : ∀ draft, system.invites.draft key = some draft →
                          draft.owner ≠ index := by
                        intro draft hdraft howner
                        have hkey := hsound.myInvite hcall hdraft howner
                        simp [hphase, Phase.invite] at hkey
                      have hmoves := invites.execUpdate_moves hlock
                      obtain ⟨hview, rfl⟩ := Option.filter_eq_some_iff.mp hview
                      rcases invites.execUpdate_cases hlock with ⟨hfalse, _⟩ |
                        ⟨draft, row, effect, _, hdraft, howner, _⟩ |
                        ⟨before, row, effect, _, hdraft, hbefore, hrow, rfl⟩
                      · cases hfalse
                      · exact absurd howner (hnone draft hdraft)
                      · cases hrow
                        have heq : before = invite := by
                          simpa [Table.view, Table.write, InviteUpdate.apply] using hview
                        subst heq
                        exact hsound.writeInvite hcall (hsound.invitesIndexed.moves invites_stays hmoves)
                          (fun draft hdraft' => by cases hdraft.symm.trans hdraft') rfl
                          (fun other hother => by simp [hphase, Phase.invite] at hother)
                          (by simp [hphase, Phase.target]) rfl rfl (by rw [hphase]; rfl) hbefore
                          (by simpa using hunused) rfl (by simp [Phase.spent]) (by simp) (by simp)
                          (by simp) (by rw [hphase]; rfl)

theorem Sound.spend {database : Database} (hsound : Sound database system)
    (hcall : system.calls[index]? = some call) {user : Loaded} {key now : Nat}
    (hphase : call.phase = .spending user key)
    (hnext : system.spend index call user key now = some next) : Sound database next := by
  have hmine := hsound.calls hcall
  obtain ⟨draft, held, hdraft, howner, hheld, hunused, htoken, _⟩ :=
    hmine.invite (show call.phase.invite = some key by rw [hphase]; rfl)
  unfold System.spend at hnext
  split at hnext
  case h_1 => cases hnext
  case h_3 =>
      cases hnext
      exact hsound.raise hcall hmine.seen.1 _
  case h_2 table hupdate =>
      cases hnext
      have hmoves := invites.execUpdate_moves hupdate
      rcases invites.execUpdate_cases hupdate with ⟨hfalse, _⟩ |
        ⟨found, row, effect, _, hfound, _, hrow, rfl⟩ | ⟨before, row, effect, _, hnone, _⟩
      · cases hfalse
      · cases hdraft.symm.trans hfound
        cases hrow
        refine hsound.writeInvite hcall (hsound.invitesIndexed.moves invites_stays hmoves)
          (fun other hother => ?_) rfl
          (fun other hother => by simpa [hphase, Phase.invite, eq_comm] using hother)
          (by simp [hphase, Phase.target]) rfl rfl (by rw [hphase]; rfl) hheld hunused htoken
          (fun _ => rfl) (by simp) (by simp) (by simp) (by rw [hphase]; rfl)
        cases hdraft.symm.trans hother
        exact howner
      · cases hdraft.symm.trans hnone

theorem Sound.hash {database : Database} (hsound : Sound database system)
    (hcall : system.calls[index]? = some call) {user : Loaded} {invite : Option Nat}
    {passwordHash : String} (hphase : call.phase = .hashing user invite)
    (hhash : passwordHash ≠ "") :
    Sound database
      (system.setCall index { call with phase := .setting user invite passwordHash }) := by
  have hmine := hsound.calls hcall
  refine hsound.setCall hcall (fun key hkey => by simpa [hphase, Phase.target] using hkey)
    (fun key hkey => by simpa [hphase, Phase.invite] using hkey) ⟨?_, (fun hkey => by cases hkey),
    ⟨hmine.seen.1, fun _ => hmine.seen.2 (by rw [hphase]; rfl)⟩, ?_, ?_⟩ (by simp)
    (by simp [hphase, Phase.settled])
  · intro key hkey
    exact hmine.target (by rw [hphase]; exact hkey)
  · intro other held hash hkey
    cases hkey
    exact hhash
  · intro key hkey
    obtain ⟨draft, held, hdraft, howner, hheld, hunused, htoken, hspent⟩ :=
      hmine.invite (show call.phase.invite = some key by rw [hphase]; exact hkey)
    exact ⟨draft, held, hdraft, howner, hheld, hunused, htoken, fun _ =>
      hspent (by rw [hphase]; rfl)⟩

theorem Sound.finish {database : Database} (hsound : Sound database system)
    (hcall : system.calls[index]? = some call) (hphase : call.phase = .finishing) :
    Sound database (system.setCall index { call with phase := .returned }) := by
  refine hsound.setCall hcall (fun key hkey => by simp [hphase, Phase.target] at hkey)
    (fun key hkey => by simp [hphase, Phase.invite] at hkey) ⟨(fun hkey => by cases hkey),
    (fun hkey => by cases hkey), ⟨(hsound.calls hcall).seen.1, (fun hkey => by cases hkey)⟩,
    (fun hkey => by cases hkey), (fun hkey => by cases hkey)⟩ (by simp) (fun _ => rfl)

theorem CallSound.fresh (htarget : new.phase.target = none) (hinvite : new.phase.invite = none)
    (hlooked : new.phase.looked = false) (hseen : new.seen ≤ system.log.length) :
    CallSound system index new where
  target hkey := by cases htarget.symm.trans hkey
  written hphase := by
    rw [hphase] at hlooked
    cases hlooked
  seen := by
    refine ⟨hseen, fun htrue => ?_⟩
    cases hlooked.symm.trans htrue
  hash hphase := by
    rw [hphase] at hlooked
    cases hlooked
  invite hkey := by cases hinvite.symm.trans hkey

theorem Sound.begin {database : Database} (hsound : Sound database system)
    (htarget : new.phase.target = none) (hinvite : new.phase.invite = none)
    (hlooked : new.phase.looked = false) (hseen : new.seen = 0)
    (hfinishing : new.phase ≠ .finishing) :
    Sound database { system with calls := system.calls ++ [new] } := by
  have hcases : ∀ {other : Nat} {found}, (system.calls ++ [new])[other]? = some found →
      found = new ∨ system.calls[other]? = some found := by
    intro other found hfound
    rw [List.getElem?_append] at hfound
    split at hfound
    case isTrue => exact .inr hfound
    case isFalse => exact .inl (List.mem_singleton.mp (List.mem_of_getElem? hfound))
  have hkeeps : ∀ {other : Nat} {found}, system.calls[other]? = some found →
      (system.calls ++ [new])[other]? = some found := by
    intro other found hfound
    rw [List.getElem?_append_left (List.getElem?_eq_some_iff.mp hfound).1, hfound]
  refine { hsound with calls := ?_, log := ?_, finished := ?_, userDraft := ?_, inviteDraft := ?_ }
  · intro other found hfound
    rcases hcases hfound with rfl | hfound
    · exact .fresh htarget hinvite hlooked (by rw [hseen]; exact Nat.zero_le _)
    · exact { hsound.calls hfound with }
  · intro done hmem
    obtain ⟨huser, hredeemed, author, hauthor, hsettled⟩ := hsound.log hmem
    exact ⟨huser, hredeemed, author, hkeeps hauthor, hsettled⟩
  · intro other found hfound hphase
    rcases hcases hfound with rfl | hfound
    · exact absurd hphase hfinishing
    · exact hsound.finished hfound hphase
  · intro key draft hdraft
    obtain ⟨author, hauthor, hkey⟩ := hsound.userDraft hdraft
    exact ⟨author, hkeeps hauthor, hkey⟩
  · intro key draft hdraft
    obtain ⟨author, hauthor, hkey⟩ := hsound.inviteDraft hdraft
    exact ⟨author, hkeeps hauthor, hkey⟩

/-! ### A commit -/

/-- What another call sees after a commit is a version of what it saw. -/
theorem Sound.view_commit {database : Database} (hsound : Sound database system) {other key : Nat}
    {row : UserRow} (hne : other ≠ index) (hview : system.users.view other key = some row) :
    ∃ after, (system.users.commit index).view other key = some after ∧
      after.email = row.email := by
  rcases system.users.view_cases hview with ⟨draft, hdraft, howner, rfl⟩ | ⟨hforeign, hrow⟩
  · refine ⟨draft.row, ?_, rfl⟩
    have hkept : (system.users.commit index).draft key = some draft := by
      simp [Table.commit, hdraft, howner, hne]
    simp [Table.view, hkept, howner]
  · have hnone : ∀ draft, (system.users.commit index).draft key = some draft →
        draft.owner ≠ other :=
      fun draft hdraft => hforeign draft (Table.draft_commit_cases hdraft).1
    rw [Table.view_of_foreign hnone]
    rcases system.users.commit_at index key with ⟨draft, hdraft, _, hafter, _⟩ | ⟨_, hafter, _⟩
    · exact ⟨draft.row, hafter, (hsound.kept hdraft hrow).1⟩
    · exact ⟨row, hafter.trans hrow, rfl⟩

/-- The record of a commit. -/
def System.registered (system : System) (index : Nat) (call : Call) (user : Nat)
    (invite : Option Nat) : Registered where
  call := index
  email := call.email
  user := user
  before := system.users.committed user
  after := system.users.view index user
  invite := invite
  redeemed := invite.bind (system.invites.view index)

theorem usersAfter_concat (database : Database) (log : List Registered) (done : Registered) :
    usersAfter database (log ++ [done]) =
      Function.update (usersAfter database log) done.user done.after := by
  simp [usersAfter]

theorem invitesAfter_concat (database : Database) (log : List Registered) (done : Registered) :
    invitesAfter database (log ++ [done]) = done.invite.elim (invitesAfter database log) fun key =>
      Function.update (invitesAfter database log) key done.redeemed := by
  simp [invitesAfter]

/-- A commit writes what the transaction sees. -/
theorem committed_commit {Row : Type} (table : Table Nat Row Unit) (key : Nat) :
    (table.commit index).committed key = table.view index key := rfl

theorem Sound.commit_others {database : Database} (hsound : Sound database system)
    (hcall : system.calls[index]? = some call) (user : Nat) (invite : Option Nat) {other : Nat}
    {found : Call} (hne : other ≠ index) (hfound : CallSound system other found) :
    CallSound (system.commit index call user invite) other found where
  target hkey := by
    obtain ⟨row, hview, hemail⟩ := hfound.target hkey
    obtain ⟨after, hafter, hsame⟩ := hsound.view_commit hne hview
    exact ⟨after, hafter, hsame.trans hemail⟩
  written hcommitting := by
    obtain ⟨draft, hdraft, howner, hpassword⟩ := hfound.written hcommitting
    exact ⟨draft, (Table.commit_foreign hdraft (by rw [howner]; exact hne)).2, howner, hpassword⟩
  seen := by
    refine ⟨?_, fun hlooked key row hrow hemail hpassword => ?_⟩
    · simp only [System.commit, List.length_append, List.length_singleton]
      exact Nat.le_succ_of_le hfound.seen.1
    · simp only [System.commit]
      rw [List.drop_append_of_le_length hfound.seen.1]
      rcases system.users.commit_at index key with ⟨draft, hdraft, howner, hafter, _⟩ |
        ⟨_, hafter, _⟩
      · -- The password is that of this commit, whose email is the one of its row.
        have hkey := hsound.mine hcall hdraft howner
        obtain ⟨mine, hview, hmine⟩ := (hsound.calls hcall).target hkey
        simp only [Table.view, hdraft, howner, if_true, Option.some.injEq] at hview
        cases hafter.symm.trans hrow
        refine ⟨_, List.mem_append_right _ (List.mem_singleton_self _), ?_⟩
        rw [hview, hmine] at hemail
        exact Option.some.inj hemail
      · obtain ⟨done, hmem, hdone⟩ :=
          hfound.seen.2 hlooked key row (hafter.symm.trans hrow) hemail hpassword
        exact ⟨done, List.mem_append_left _ hmem, hdone⟩
  hash := hfound.hash
  invite hkey := by
    obtain ⟨draft, held, hdraft, howner, hheld, hrest⟩ := hfound.invite hkey
    have hforeign : draft.owner ≠ index := by
      rw [howner]
      exact hne
    obtain ⟨hsame, hkept⟩ := Table.commit_foreign hdraft hforeign
    exact ⟨draft, held, hkept, howner, hsame.trans hheld, hrest⟩

/-- What is committed stays, and so does what a commit before has left. -/
theorem Sound.commit_log {database : Database} (hsound : Sound database system)
    (hcall : system.calls[index]? = some call) {user : Nat} {invite : Option Nat}
    (hphase : call.phase = .committing user invite) {done : Registered}
    (hmem : done ∈ system.log) :
    RegisteredSound (system.commit index call user invite) done := by
  obtain ⟨⟨row, hrow, hemail, hpassword⟩, hredeemed, author, hauthor, hsettled⟩ := hsound.log hmem
  refine ⟨?_, fun hsome => ?_, ?_⟩
  · rcases system.users.commit_at index done.user with ⟨draft, hdraft, _, hafter, _⟩ | ⟨_, hafter, _⟩
    · obtain ⟨hsame, hkept⟩ := hsound.kept hdraft hrow
      exact ⟨draft.row, hafter, hsame.trans hemail, hkept hpassword⟩
    · exact ⟨row, hafter.trans hrow, hemail, hpassword⟩
  · obtain ⟨key, held, hheld, htoken, hused⟩ := hredeemed hsome
    refine ⟨key, held, ?_, htoken, hused⟩
    rcases system.invites.commit_at index key with ⟨draft, hdraft, howner, _⟩ | ⟨_, hafter, _⟩
    · obtain ⟨_, free, _, _, hfree, hunused, _⟩ :=
        (hsound.calls hcall).invite (hsound.myInvite hcall hdraft howner)
      cases hheld.symm.trans hfree
      rw [hunused] at hused
      cases hused
    · exact hafter.trans hheld
  · have hne : done.call ≠ index := by
      rintro heq
      rw [heq] at hauthor
      cases hcall.symm.trans hauthor
      rw [hphase] at hsettled
      cases hsettled
    exact ⟨author, (List.getElem?_set_ne hne.symm).trans hauthor, hsettled⟩

theorem Sound.commit {database : Database} (hsound : Sound database system)
    (hcall : system.calls[index]? = some call) {user : Nat} {invite : Option Nat}
    (hphase : call.phase = .committing user invite) :
    Sound database (system.commit index call user invite) := by
  have hmine := hsound.calls hcall
  have hlt : index < system.calls.length := (List.getElem?_eq_some_iff.mp hcall).1
  obtain ⟨draft, hdraft, howner, hpassword⟩ := hmine.written hphase
  obtain ⟨row, hview, hemail⟩ := hmine.target (show call.phase.target = some user by rw [hphase]; rfl)
  have hother : ∀ {other}, other ≠ index →
      (system.calls.set index { call with phase := .finishing })[other]? = system.calls[other]? :=
    fun hne => List.getElem?_set_ne hne.symm
  have hself : (system.calls.set index { call with phase := .finishing })[index]? =
      some { call with phase := .finishing } := List.getElem?_set_self hlt
  refine ⟨hsound.usersIndexed.moves users_stays (.commit index),
    hsound.invitesIndexed.moves invites_stays (.commit index), ?calls, ?log, ?finished, ?kept,
    ?userDraft, ?inviteDraft, ?usersReplay, ?invitesReplay⟩
  case calls =>
    intro other found hfound
    by_cases heq : other = index
    · subst heq
      cases hself.symm.trans hfound
      refine .fresh rfl rfl rfl ?_
      simp only [System.commit, List.length_append, List.length_singleton]
      exact Nat.le_succ_of_le hmine.seen.1
    · have hold := hsound.calls ((hother heq).symm.trans hfound)
      exact hsound.commit_others hcall user invite heq hold
  case log =>
    intro done hmem
    rw [System.commit, List.mem_append, List.mem_singleton] at hmem
    rcases hmem with hmem | rfl
    · exact hsound.commit_log hcall hphase hmem
    · refine ⟨⟨draft.row, ?_, ?_, hpassword⟩, ?_, ⟨_, hself, rfl⟩⟩
      · simp [System.commit, committed_commit, Table.view, hdraft, howner]
      · simp only [Table.view, hdraft, howner, if_true, Option.some.injEq] at hview
        rw [hview, hemail]
      · intro redeemed hredeemed
        obtain ⟨key, rfl, hkey⟩ := Option.bind_eq_some_iff.mp hredeemed
        obtain ⟨version, held, hversion, hversionOwner, hheld, hunused, htoken, hspent⟩ :=
          hmine.invite (show call.phase.invite = some key by rw [hphase]; rfl)
        refine ⟨key, redeemed, hkey, rfl, ?_⟩
        simp only [Table.view, hversion, hversionOwner, if_true, Option.some.injEq] at hkey
        rw [← hkey]
        exact hspent (by rw [hphase]; rfl)
  case finished =>
    intro other found hfound hfinishing
    by_cases heq : other = index
    · exact ⟨_, List.mem_append_right _ (List.mem_singleton_self _), heq.symm⟩
    · obtain ⟨done, hmem, hdone⟩ := hsound.finished ((hother heq).symm.trans hfound) hfinishing
      exact ⟨done, List.mem_append_left _ hmem, hdone⟩
  case kept =>
    intro key version before hversion hbefore
    obtain ⟨hversion, hne⟩ := Table.draft_commit_cases hversion
    exact hsound.kept hversion ((Table.commit_foreign hversion hne).1.symm.trans hbefore)
  case userDraft =>
    intro key version hversion
    obtain ⟨hversion, hne⟩ := Table.draft_commit_cases hversion
    obtain ⟨author, hauthor, hkey⟩ := hsound.userDraft hversion
    exact ⟨author, (hother hne).trans hauthor, hkey⟩
  case inviteDraft =>
    intro key version hversion
    obtain ⟨hversion, hne⟩ := Table.draft_commit_cases hversion
    obtain ⟨author, hauthor, hkey⟩ := hsound.inviteDraft hversion
    exact ⟨author, (hother hne).trans hauthor, hkey⟩
  case usersReplay =>
    rw [System.commit, usersAfter_concat, ← hsound.usersReplay]
    funext key
    rw [committed_commit]
    by_cases heq : key = user
    · rw [heq, Function.update_self]
    · rw [Function.update_of_ne heq, Table.view_of_foreign]
      intro version hversion hversionOwner
      have hkey := hsound.mine hcall hversion hversionOwner
      rw [hphase] at hkey
      exact heq (Option.some.inj hkey).symm
  case invitesReplay =>
    rw [System.commit, invitesAfter_concat, ← hsound.invitesReplay]
    funext key
    rw [committed_commit]
    by_cases heq : invite = some key
    · simp [heq]
    · rw [Table.view_of_foreign]
      · cases invite with
        | none => rfl
        | some held =>
            have hne : key ≠ held := fun hsame => heq (by rw [hsame])
            simp [hne]
      · intro version hversion hversionOwner
        have hkey := hsound.myInvite hcall hversion hversionOwner
        rw [hphase] at hkey
        exact heq hkey

/-- The email of a commit before is that of the row which this one writes. -/
theorem Sound.registered_password {database : Database} (hsound : Sound database system)
    (hcall : system.calls[index]? = some call) {user : Nat} {invite : Option Nat}
    (hphase : call.phase = .committing user invite) {done : Registered}
    (hmem : done ∈ system.log) (hdone : done.email = call.email) :
    (system.users.committed user).any UserRow.hasPassword = true := by
  have hmine := hsound.calls hcall
  obtain ⟨draft, hdraft, howner, _⟩ := hmine.written hphase
  obtain ⟨row, hview, hemail⟩ := hmine.target (show call.phase.target = some user by rw [hphase]; rfl)
  simp only [Table.view, hdraft, howner, if_true, Option.some.injEq] at hview
  subst hview
  obtain ⟨before, hbefore, hbeforeEmail, hpassword⟩ := (hsound.log hmem).user
  rw [hdone] at hbeforeEmail
  have heq : done.user = user := by
    rcases hsound.usersIndexed.exclusive.mixed hbefore hdraft (covers_email hbeforeEmail)
      (covers_email hemail) with heq | ⟨moved, hmoved, _, hgone⟩
    · exact heq
    · have hsame := (hsound.kept hmoved hbefore).1.trans hbeforeEmail
      cases hgone.symm.trans (covers_email hsame)
  rw [← heq, hbefore]
  exact hpassword

/-- **What a commit finds.** The row has a password just if another call has committed one for the
email since this call looked it up. -/
theorem Sound.overwrites_iff {database : Database} (hsound : Sound database system)
    (hcall : system.calls[index]? = some call) {user : Nat} {invite : Option Nat}
    (hphase : call.phase = .committing user invite) :
    (system.users.committed user).any UserRow.hasPassword = true ↔
      ∃ done ∈ system.log.drop call.seen, done.email = call.email := by
  have hmine := hsound.calls hcall
  obtain ⟨draft, hdraft, howner, _⟩ := hmine.written hphase
  obtain ⟨row, hview, hemail⟩ := hmine.target (show call.phase.target = some user by rw [hphase]; rfl)
  simp only [Table.view, hdraft, howner, if_true, Option.some.injEq] at hview
  subst hview
  constructor
  · intro hany
    cases hbefore : system.users.committed user with
    | none => simp [hbefore] at hany
    | some before =>
        rw [hbefore] at hany
        exact hmine.seen.2 (by rw [hphase]; rfl) user before hbefore
          ((hsound.kept hdraft hbefore).1.symm.trans hemail) hany
  · rintro ⟨done, hmem, hdone⟩
    exact hsound.registered_password hcall hphase (List.mem_of_mem_drop hmem) hdone

/-! ### Steps -/

theorem Sound.goOn {database : Database} (hsound : Sound database system)
    (hcall : system.calls[index]? = some call) {now : Nat} {passwordHash : String}
    (hnext : system.goOn index call now passwordHash = some next) : Sound database next := by
  unfold System.goOn at hnext
  split at hnext
  case h_1 hphase =>
      cases hnext
      exact hsound.lookup hcall hphase
  case h_2 hphase => exact hsound.insert hcall hphase hnext
  case h_3 hphase =>
      cases hnext
      exact hsound.select hcall hphase
  case h_4 hphase => exact hsound.redeem hcall hphase hnext
  case h_5 hphase => exact hsound.spend hcall hphase hnext
  case h_6 hphase =>
      split at hnext <;> cases hnext
      case isFalse hhash => exact hsound.hash hcall hphase hhash
  case h_7 hphase => exact hsound.setPasswordHash hcall hphase hnext
  case h_8 hphase =>
      cases hnext
      exact hsound.commit hcall hphase
  case h_9 hphase =>
      cases hnext
      exact hsound.finish hcall hphase
  case h_10 => cases hnext
  case h_11 => cases hnext

theorem accept_phase {request : Request} (h : env.accept request = .ok call) :
    call.phase = .lookup ∧ call.seen = 0 := by
  cases request with
  | register rawEmail password rawToken rawName =>
      simp only [Env.accept] at h
      obtain ⟨email, _, h⟩ := Except.bind_eq_ok.mp h
      obtain ⟨_, _, h⟩ := Except.bind_eq_ok.mp h
      split at h
      · cases h
        exact ⟨rfl, rfl⟩
      · split at h <;> cases h
        exact ⟨rfl, rfl⟩
  | createUser rawEmail password rawName role =>
      obtain ⟨email, _, h⟩ := Except.bind_eq_ok.mp h
      obtain ⟨_, _, h⟩ := Except.bind_eq_ok.mp h
      cases h
      exact ⟨rfl, rfl⟩

theorem Sound.step {database : Database} {action : Action} (hsound : Sound database system)
    (hstep : step env system action = some next) : Sound database next := by
  cases action with
  | begin request admitted =>
      cases hstep
      split
      case h_1 call haccept =>
          split at haccept
          case isFalse => cases haccept
          case isTrue =>
              obtain ⟨hphase, hseen⟩ := accept_phase haccept
              exact hsound.begin (by rw [hphase]; rfl) (by rw [hphase]; rfl) (by rw [hphase]; rfl)
                hseen (by simp [hphase])
      case h_2 => exact hsound.begin rfl rfl rfl rfl (by simp)
  | goOn index now passwordHash =>
      obtain ⟨call, hcall, hnext⟩ := Option.bind_eq_some_iff.mp hstep
      exact hsound.goOn hcall hnext
  | raise index =>
      simp only [Registration.step] at hstep
      split at hstep
      case h_2 => cases hstep
      case h_1 call hcall =>
          split at hstep <;> cases hstep
          exact hsound.raise hcall (hsound.calls hcall).seen.1 none

/-- A step that is no commit: the log stays, and a call that is over either stays as it is or
returns or raises. -/
theorem goOn_log {now : Nat} {passwordHash : String}
    (hcommitting : ∀ user invite, call.phase ≠ .committing user invite)
    (hnext : system.goOn index call now passwordHash = some next) :
    next.log = system.log ∧ ∃ new, next.calls = system.calls.set index new ∧
      (call.phase.settled = true → ∀ error, new.phase ≠ .raised error) := by
  cases hphase : call.phase with
  | lookup =>
      simp only [System.goOn, hphase, System.lookup] at hnext
      split at hnext
      case h_1 =>
          split at hnext <;> cases hnext <;> exact ⟨rfl, _, rfl, fun h => by cases h⟩
      case h_2 =>
          cases hnext
          exact ⟨rfl, _, rfl, fun h => by cases h⟩
  | inserting =>
      simp only [System.goOn, hphase, System.insert] at hnext
      split at hnext <;> cases hnext <;> exact ⟨rfl, _, rfl, fun h => by cases h⟩
  | selecting =>
      simp only [System.goOn, hphase, System.select] at hnext
      split at hnext <;> cases hnext <;> exact ⟨rfl, _, rfl, fun h => by cases h⟩
  | redeeming user token =>
      simp only [System.goOn, hphase, System.redeem] at hnext
      split at hnext
      case h_1 =>
          cases hnext
          exact ⟨rfl, _, rfl, fun h => by cases h⟩
      case h_2 =>
          split at hnext
          case h_1 => cases hnext
          case h_2 =>
              split at hnext
              case h_1 =>
                  cases hnext
                  exact ⟨rfl, _, rfl, fun h => by cases h⟩
              case h_2 =>
                  split at hnext
                  case isTrue =>
                      cases hnext
                      exact ⟨rfl, _, rfl, fun h => by cases h⟩
                  case isFalse =>
                      split at hnext <;> cases hnext <;> exact ⟨rfl, _, rfl, fun h => by cases h⟩
  | spending user key =>
      simp only [System.goOn, hphase, System.spend] at hnext
      split at hnext <;> cases hnext <;> exact ⟨rfl, _, rfl, fun h => by cases h⟩
  | hashing user invite =>
      simp only [System.goOn, hphase] at hnext
      split at hnext <;> cases hnext
      exact ⟨rfl, _, rfl, fun h => by cases h⟩
  | setting user invite hash =>
      simp only [System.goOn, hphase, System.setPasswordHash] at hnext
      split at hnext <;> cases hnext <;> exact ⟨rfl, _, rfl, fun h => by cases h⟩
  | committing user invite => exact absurd hphase (hcommitting user invite)
  | finishing =>
      simp only [System.goOn, hphase] at hnext
      cases hnext
      exact ⟨rfl, _, rfl, by simp⟩
  | returned => simp [System.goOn, hphase] at hnext
  | raised error => simp [System.goOn, hphase] at hnext

/-! ### Every schedule -/

/-- What the calls of a schedule have done. -/
structure RegisteredOnce (database : Database) (system : System) : Prop where
  /-- One call at most gives an email its first password. -/
  first : system.log.Pairwise fun done again => done.email = again.email →
    done.before.any UserRow.hasPassword = true ∨ again.before.any UserRow.hasPassword = true
  /-- No password is overwritten. -/
  kept : ∀ done ∈ system.log, done.before.any UserRow.hasPassword = false
  /-- A token is redeemed once. -/
  invite : system.log.Pairwise fun done again => ∀ redeemed other,
    done.redeemed = some redeemed → again.redeemed = some other → redeemed.token ≠ other.token
  /-- A call that raises has committed nothing. -/
  raised : ∀ done ∈ system.log, ∀ call error,
    system.calls[done.call]? = some call → call.phase ≠ .raised error
  /-- The tables are what the commits have made of them. -/
  users : system.users.committed = usersAfter database system.log
  invites : system.invites.committed = invitesAfter database system.log

/-- No other call has committed for the email since this one looked it up, and none raises that has
committed. -/
def undisturbed (system : System) : Action → Bool
  | .begin _ _ => true
  | .goOn index _ _ =>
      (system.calls[index]?).all fun call => match call.phase with
        | .committing _ _ => (system.log.drop call.seen).all fun done => done.email ≠ call.email
        | _ => true
  | .raise index => (system.calls[index]?).all fun call => call.phase ≠ .finishing

theorem RegisteredOnce.same {database : Database} (h : RegisteredOnce database system)
    (hsound : Sound database next) (hlog : next.log = system.log)
    (hraised : ∀ done ∈ system.log, ∀ call error, next.calls[done.call]? = some call →
      call.phase ≠ .raised error) : RegisteredOnce database next where
  first := by
    rw [hlog]
    exact h.first
  kept := by
    rw [hlog]
    exact h.kept
  invite := by
    rw [hlog]
    exact h.invite
  raised := by
    rw [hlog]
    exact hraised
  users := hsound.usersReplay
  invites := hsound.invitesReplay

/-- A commit keeps all of it just if the row had no password. -/
theorem registeredOnce_commit {database : Database} (hsound : Sound database system)
    (h : RegisteredOnce database system) (hcall : system.calls[index]? = some call) {user : Nat}
    {invite : Option Nat} (hphase : call.phase = .committing user invite) :
    RegisteredOnce database (system.commit index call user invite) ↔
      (system.users.committed user).any UserRow.hasPassword = false := by
  have hnext := hsound.commit hcall hphase
  constructor
  · intro honce
    exact honce.kept _ (List.mem_append_right _ (List.mem_singleton_self _))
  · intro hnone
    refine ⟨?_, ?_, ?_, ?_, hnext.usersReplay, hnext.invitesReplay⟩
    · refine List.pairwise_append.mpr ⟨h.first, List.pairwise_singleton _ _, ?_⟩
      intro done hmem again hagain hemail
      obtain rfl := List.mem_singleton.mp hagain
      cases hnone.symm.trans (hsound.registered_password hcall hphase hmem hemail)
    · intro done hmem
      rcases List.mem_append.mp hmem with hmem | hmem
      · exact h.kept done hmem
      · obtain rfl := List.mem_singleton.mp hmem
        exact hnone
    · refine List.pairwise_append.mpr ⟨h.invite, List.pairwise_singleton _ _, ?_⟩
      intro done hmem again hagain redeemed other hredeemed hother htoken
      obtain rfl := List.mem_singleton.mp hagain
      obtain ⟨key, row, hrow, hrowToken, hused⟩ := (hsound.log hmem).invite hredeemed
      obtain ⟨held, rfl, hheld⟩ := Option.bind_eq_some_iff.mp hother
      obtain ⟨draft, free, hdraft, howner, hfree, hunused, hdraftToken, _⟩ :=
        (hsound.calls hcall).invite (show call.phase.invite = some held by rw [hphase]; rfl)
      simp only [Table.view, hdraft, howner, if_true, Option.some.injEq] at hheld
      have heq : key = held :=
        hsound.invitesIndexed.exclusive.committed hrow hfree
          (Schema.covers_iff.mpr ⟨rfl, rfl⟩)
          (Schema.covers_iff.mpr ⟨rfl, by
            rw [show invites.group free = free.token from rfl, ← hdraftToken, hheld, ← htoken,
              ← hrowToken]
            rfl⟩)
      subst heq
      cases hrow.symm.trans hfree
      rw [hunused] at hused
      cases hused
    · intro done hmem author error hauthor
      rcases List.mem_append.mp hmem with hmem | hmem
      · have hne : done.call ≠ index := by
          intro heq
          obtain ⟨before, hbefore, hsettled⟩ := (hsound.log hmem).author
          rw [heq] at hbefore
          cases hcall.symm.trans hbefore
          rw [hphase] at hsettled
          cases hsettled
        exact h.raised done hmem author error ((List.getElem?_set_ne hne.symm).symm.trans hauthor)
      · obtain rfl := List.mem_singleton.mp hmem
        have hlt : index < system.calls.length := (List.getElem?_eq_some_iff.mp hcall).1
        cases (List.getElem?_set_self hlt).symm.trans hauthor
        simp

theorem registeredOnce_step {database : Database} {action : Action}
    (hsound : Sound database system) (h : RegisteredOnce database system)
    (hstep : step env system action = some next) :
    RegisteredOnce database next ↔ undisturbed system action = true := by
  have hnext := hsound.step hstep
  have hauthor : ∀ done ∈ system.log, ∃ author, system.calls[done.call]? = some author ∧
      author.phase.settled = true := fun done hmem => (hsound.log hmem).author
  cases action with
  | begin request admitted =>
      cases hstep
      refine iff_of_true (h.same hnext rfl fun done hmem found error hfound => ?_) rfl
      obtain ⟨author, hcall, _⟩ := hauthor done hmem
      rw [List.getElem?_append_left (List.getElem?_eq_some_iff.mp hcall).1] at hfound
      exact h.raised done hmem found error hfound
  | goOn index now passwordHash =>
      obtain ⟨call, hcall, hgoOn⟩ := Option.bind_eq_some_iff.mp hstep
      by_cases hcommitting : ∃ user invite, call.phase = .committing user invite
      · obtain ⟨user, invite, hphase⟩ := hcommitting
        simp only [System.goOn, hphase] at hgoOn
        cases hgoOn
        rw [registeredOnce_commit hsound h hcall hphase]
        have hiff := hsound.overwrites_iff hcall hphase
        simp only [undisturbed, hcall, hphase, Option.all_some, List.all_eq_true,
          decide_eq_true_eq]
        rw [← Bool.not_eq_true, hiff]
        push Not
        rfl
      · have hundisturbed : undisturbed system (.goOn index now passwordHash) = true := by
          simp only [undisturbed, hcall, Option.all_some]
          split
          case h_1 user invite hphase => exact absurd ⟨user, invite, hphase⟩ hcommitting
          case h_2 => rfl
        obtain ⟨hlog, new, hcalls, hnew⟩ := goOn_log
          (fun user invite hphase => hcommitting ⟨user, invite, hphase⟩) hgoOn
        refine iff_of_true (h.same hnext hlog fun done hmem found error hfound => ?_) hundisturbed
        obtain ⟨author, hbefore, hsettled⟩ := hauthor done hmem
        rw [hcalls] at hfound
        by_cases heq : index = done.call
        · subst heq
          rw [List.getElem?_set_self (List.getElem?_eq_some_iff.mp hcall).1] at hfound
          cases hfound
          cases hcall.symm.trans hbefore
          exact hnew hsettled error
        · rw [List.getElem?_set_ne heq] at hfound
          exact h.raised done hmem found error hfound
  | raise index =>
      simp only [Registration.step] at hstep
      split at hstep
      case h_2 => cases hstep
      case h_1 call hcall =>
          have hself : (system.raise index call none).calls[index]? =
              some { call with phase := .raised none } :=
            List.getElem?_set_self (List.getElem?_eq_some_iff.mp hcall).1
          simp only [undisturbed, hcall, Option.all_some, decide_eq_true_eq]
          split at hstep <;> cases hstep
          case h_3 hreturned hraised =>
          constructor
          · intro honce hfinishing
            obtain ⟨done, hmem, rfl⟩ := hsound.finished hcall hfinishing
            exact honce.raised done hmem _ none hself rfl
          · intro hfinishing
            refine h.same hnext rfl fun done hmem found error hfound => ?_
            have hne : index ≠ done.call := by
              rintro rfl
              obtain ⟨author, hbefore, hsettled⟩ := hauthor done hmem
              cases hcall.symm.trans hbefore
              cases hphase : call.phase <;> simp_all [Phase.settled]
            exact h.raised done hmem found error ((List.getElem?_set_ne hne).symm.trans hfound)

/-- **An email is registered once, an invite is spent once.** In every state of a run all of it holds
just if no call commits after another has committed for the same email since it looked the email up,
and no call raises after its commit. -/
theorem email_registered_once (database : Database) {actions : List Action} {system : System}
    (hrun : run (step env) database.start actions = some system) :
    (∀ done middle, done <+: actions → run (step env) database.start done = some middle →
        RegisteredOnce database middle) ↔
      RunAllowed (step env) (fun system action => undisturbed system action = true) database.start
        actions := by
  refine Transition.runAllowed_iff ?_ ?_ hrun
  · exact ⟨List.Pairwise.nil, (fun _ h => by cases h), List.Pairwise.nil, (fun _ h => by cases h),
      rfl, rfl⟩
  · intro done before action after hdone hbefore hstep
    have hsound : Sound database before :=
      (Transition.reach_of_run_all hdone).invariant (Sound database) (sound_start database)
        fun _ _ _ hinv _ hnext => hinv.step hnext
    exact registeredOnce_step hsound hbefore hstep

/-- Addresses are taken as they are. -/
def plainEnv : Env := ⟨some, fun text => text, "root@example.org"⟩

theorem ticket_first (key : Nat) (hkey : 2 ≤ key) :
    (if key = 1 then some (⟨"ticket", 1000, none, none⟩ : InviteRow) else none) = none :=
  if_neg (Nat.ne_of_gt hkey)

/-- No user, and one invite. -/
def oneInvite : Database where
  users := fun _ => none
  invites := fun key => if key = 1 then some ⟨"ticket", 1000, none, none⟩ else none
  nextUser := 1
  nextInvite := 2
  usersBelow _ _ := rfl
  invitesBelow := ticket_first
  emailUnique h := by cases h
  tokenUnique := by
    intro key other row otherRow hrow hother _
    have hkey := (Option.ite_none_right_eq_some.mp hrow).1
    have hsame := (Option.ite_none_right_eq_some.mp hother).1
    exact hkey.trans hsame.symm

/-- A user registers with the invite, and a second call finds the email taken. -/
def registrationRun : List Action :=
  [.begin (.register "ann@example.org" "secretpass" "ticket" "") true, .goOn 0 1 "", .goOn 0 2 "",
    .goOn 0 3 "", .goOn 0 4 "", .goOn 0 5 "hash", .goOn 0 6 "", .goOn 0 7 "", .goOn 0 8 "",
    .begin (.createUser "ann@example.org" "otherpass" "" .user) true, .goOn 1 9 ""]

theorem email_registered_once_executed :
    ∃ system, run (step plainEnv) oneInvite.start registrationRun = some system ∧
      ((∀ done middle, done <+: registrationRun →
          run (step plainEnv) oneInvite.start done = some middle →
            RegisteredOnce oneInvite middle) ↔
        RunAllowed (step plainEnv) (fun system action => undisturbed system action = true)
          oneInvite.start registrationRun) := by
  have hdefined : (run (step plainEnv) oneInvite.start registrationRun).isSome = true := by
    decide +kernel
  obtain ⟨system, hrun⟩ := Option.isSome_iff_exists.mp hdefined
  exact ⟨system, hrun, email_registered_once oneInvite hrun⟩

/-- Two calls look an email up before either has committed: the second sets its password over the
one of the first. -/
theorem password_overwritten :
    (run (step plainEnv) oneInvite.start
      [.begin (.createUser "ann@example.org" "firstpass" "" .user) true,
        .begin (.createUser "ann@example.org" "secondpass" "" .user) true,
        .goOn 0 1 "", .goOn 1 1 "", .goOn 0 2 "", .goOn 0 3 "first", .goOn 0 4 "", .goOn 0 5 "",
        .goOn 0 6 "", .goOn 1 7 "", .goOn 1 8 "", .goOn 1 9 "second", .goOn 1 10 "",
        .goOn 1 11 "", .goOn 1 12 ""]).any (fun system =>
      system.log.map (fun done => done.before.bind UserRow.passwordHash) = [none, some "first"] &&
        (system.users.committed 1).bind UserRow.passwordHash = some "second" &&
        system.calls.map Call.phase = [.returned, .returned]) = true := by
  decide +kernel

end CodexServer.Registration
