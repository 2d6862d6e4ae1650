import CodexServer.AdminRoles
import Mathlib.Data.List.Forall2

/-!
# The list decides

A sync gives each row a role that depends on the list and, for a row that is linked to an email, on
the role before. It is the linked rows alone that keep something of the lists before.
-/

namespace CodexServer.AdminRoles

open TelegramHandler (UserRole)

variable {adminIds before : List Int} {user : User} {users : List User}

/-! ### One row -/

/-- The role that a sync leaves. -/
def syncedRole (adminIds : List Int) (user : User) : UserRole :=
  match user.tgUserId with
  | none => user.role
  | some id =>
      if adminIds.contains id then .admin else if user.email.isNone then .user else user.role

def synced (adminIds : List Int) (user : User) : User :=
  { user with role := syncedRole adminIds user }

theorem promotes_empty : promotes [] user = false := by
  cases hid : user.tgUserId <;> simp [promotes, hid]

/-- The two updates of a row. -/
theorem demoted_promoted :
    (let promoted := if promotes adminIds user then { user with role := .admin } else user
      if demotes adminIds promoted then { promoted with role := .user } else promoted) =
      synced adminIds user := by
  obtain ⟨tgUserId, email, role⟩ := user
  cases tgUserId with
  | none => simp [promotes, demotes, synced, syncedRole]
  | some id =>
      by_cases hlisted : id ∈ adminIds
      · have hnonempty : adminIds ≠ [] := List.ne_nil_of_mem hlisted
        cases role <;> simp [promotes, demotes, synced, syncedRole, hlisted, hnonempty]
      · cases email <;> cases role <;> simp [promotes, demotes, synced, syncedRole, hlisted]

theorem updateRole_promotes_empty (role : UserRole) :
    updateRole role (promotes []) users = (0, users) := by
  simp [updateRole, promotes_empty]

/-- The first update does nothing without a list, so it need not be left out. -/
theorem syncAdminRoles_eq : syncAdminRoles adminIds users =
    (((updateRole .admin (promotes adminIds) users).1,
      (updateRole .user (demotes adminIds) (updateRole .admin (promotes adminIds) users).2).1),
      users.map (synced adminIds)) := by
  have htable : (updateRole .user (demotes adminIds)
      (updateRole .admin (promotes adminIds) users).2).2 = users.map (synced adminIds) := by
    unfold updateRole
    rw [List.map_map]
    exact List.map_congr_left fun user _ => demoted_promoted
  have hfirst : (if adminIds.isEmpty then (0, users)
      else updateRole .admin (promotes adminIds) users) =
        updateRole .admin (promotes adminIds) users := by
    split
    · next hempty =>
        rw [List.isEmpty_iff.mp hempty, updateRole_promotes_empty]
    · rfl
  unfold syncAdminRoles
  dsimp only
  rw [hfirst, htable]

theorem sync_table : (syncAdminRoles adminIds users).2 = users.map (synced adminIds) := by
  rw [syncAdminRoles_eq]

theorem synced_synced : synced adminIds (synced adminIds user) = synced adminIds user := by
  obtain ⟨tgUserId, email, role⟩ := user
  cases tgUserId with
  | none => rfl
  | some id =>
      unfold synced syncedRole
      dsimp only
      split
      · rfl
      · split <;> rfl

theorem promotes_synced : promotes adminIds (synced adminIds user) = false := by
  obtain ⟨tgUserId, email, role⟩ := user
  cases tgUserId with
  | none => simp [promotes, synced]
  | some id =>
      by_cases hlisted : id ∈ adminIds
      · simp [promotes, synced, syncedRole, hlisted]
      · simp [promotes, synced, hlisted]

theorem demotes_synced : demotes adminIds (synced adminIds user) = false := by
  obtain ⟨tgUserId, email, role⟩ := user
  cases tgUserId with
  | none => simp [demotes, synced]
  | some id =>
      by_cases hlisted : id ∈ adminIds
      · have hnonempty : adminIds ≠ [] := List.ne_nil_of_mem hlisted
        simp [demotes, synced, hlisted, hnonempty]
      · cases email <;> simp [demotes, synced, syncedRole, hlisted]

/-- A second sync finds nothing to do. -/
theorem sync_again : syncAdminRoles adminIds (syncAdminRoles adminIds users).2 =
    ((0, 0), (syncAdminRoles adminIds users).2) := by
  have hpromoted : updateRole .admin (promotes adminIds) (users.map (synced adminIds)) =
      (0, users.map (synced adminIds)) := by
    simp [updateRole, List.countP_map, promotes_synced]
  have hdemoted : updateRole .user (demotes adminIds) (users.map (synced adminIds)) =
      (0, users.map (synced adminIds)) := by
    simp [updateRole, List.countP_map, demotes_synced]
  rw [sync_table, syncAdminRoles_eq, hpromoted, hdemoted, List.map_map]
  refine Prod.ext rfl (List.map_congr_left fun user _ => ?_)
  exact synced_synced

/-! ### The law -/

def User.telegramOnly (user : User) : Bool := user.tgUserId.isSome && user.email.isNone

/-- After a sync the roles are what the list says, whatever lists there were before. -/
structure ListDecides (before adminIds : List Int) (users : List User) : Prop where
  admins : ∀ user ∈ (syncAdminRoles adminIds users).2, user.telegramOnly = true →
    (user.role = .admin ↔ user.tgUserId.any adminIds.contains = true)
  linked : List.Forall₂ (fun user after => user.email.isSome = true → after.role = user.role) users
    (syncAdminRoles adminIds users).2
  last : (syncAdminRoles adminIds (syncAdminRoles before users).2).2 =
    (syncAdminRoles adminIds users).2
  again : syncAdminRoles adminIds (syncAdminRoles adminIds users).2 =
    ((0, 0), (syncAdminRoles adminIds users).2)

/-- The row is linked to an email, is not an admin, and is on the list. -/
def User.caught (user : User) (adminIds : List Int) : Prop :=
  user.email.isSome = true ∧ promotes adminIds user = true

theorem admins_synced (htelegram : (synced adminIds user).telegramOnly = true) :
    (synced adminIds user).role = .admin ↔
      (synced adminIds user).tgUserId.any adminIds.contains = true := by
  obtain ⟨tgUserId, email, role⟩ := user
  cases tgUserId with
  | none => simp [User.telegramOnly, synced] at htelegram
  | some id =>
      have hemail : email = none := by simpa [User.telegramOnly, synced] using htelegram
      by_cases hlisted : id ∈ adminIds <;> simp [synced, syncedRole, hemail, hlisted]

theorem linked_synced :
    (user.email.isSome = true → (synced adminIds user).role = user.role) ↔
      ¬user.caught adminIds := by
  obtain ⟨tgUserId, email, role⟩ := user
  cases tgUserId with
  | none => simp [User.caught, promotes, synced, syncedRole]
  | some id =>
      by_cases hlisted : id ∈ adminIds <;> cases email <;> cases role <;>
        simp [User.caught, promotes, synced, syncedRole, hlisted]

theorem last_synced : synced adminIds (synced before user) = synced adminIds user ↔
    (user.caught before → promotes adminIds user = true) := by
  obtain ⟨tgUserId, email, role⟩ := user
  cases tgUserId with
  | none => simp [User.caught, promotes, synced, syncedRole]
  | some id =>
      by_cases hlisted : id ∈ adminIds <;> by_cases hbefore : id ∈ before <;> cases email <;>
        cases role <;> simp [User.caught, promotes, synced, syncedRole, hlisted, hbefore]

theorem forall₂_map_self {α β : Type} {R : α → β → Prop} {f : α → β} {items : List α} :
    List.Forall₂ R items (items.map f) ↔ ∀ item ∈ items, R item (f item) := by
  rw [List.forall₂_map_right_iff, List.forall₂_same]

/-- **The list decides** just if no linked row has been caught by a list. -/
theorem list_decides (before adminIds : List Int) (users : List User) :
    ListDecides before adminIds users ↔
      ∀ user ∈ users, ¬user.caught before ∧ ¬user.caught adminIds := by
  have hlinked : List.Forall₂ (fun user after => user.email.isSome = true → after.role = user.role)
      users (syncAdminRoles adminIds users).2 ↔ ∀ user ∈ users, ¬user.caught adminIds := by
    rw [sync_table, forall₂_map_self]
    exact forall₂_congr fun user _ => linked_synced
  have hlast : (syncAdminRoles adminIds (syncAdminRoles before users).2).2 =
      (syncAdminRoles adminIds users).2 ↔
        ∀ user ∈ users, user.caught before → promotes adminIds user = true := by
    rw [sync_table, sync_table, sync_table, List.map_map, List.map_inj_left]
    exact forall₂_congr fun user _ => last_synced
  constructor
  · intro h user huser
    have hcaught := hlinked.mp h.linked user huser
    refine ⟨fun hbefore => hcaught ⟨hbefore.1, ?_⟩, hcaught⟩
    exact hlast.mp h.last user huser hbefore
  · intro h
    refine ⟨?_, hlinked.mpr fun user huser => (h user huser).2,
      hlast.mpr fun user huser hbefore => absurd hbefore (h user huser).1, sync_again⟩
    intro after hafter
    rw [sync_table] at hafter
    obtain ⟨user, -, rfl⟩ := List.mem_map.mp hafter
    exact admins_synced

/-- A web account that was linked to Telegram becomes an admin, and stays one. -/
theorem linked_account_promoted :
    ¬ListDecides [7] [] [⟨some 7, some "web@example.org", .user⟩] := by
  intro h
  exact absurd h.last (by decide)

end CodexServer.AdminRoles
