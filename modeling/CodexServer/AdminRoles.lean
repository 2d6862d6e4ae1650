import CodexServer.TelegramHandler

/-!
# The roles of the admins

`UserService.sync_admin_roles` brings the roles in line with a list of Telegram ids, by two updates
of the table of users. It runs in one transaction.
-/

namespace CodexServer.AdminRoles

open TelegramHandler (UserRole)

/-- A row of `users`, with the columns that are read here. -/
structure User where
  tgUserId : Option Int
  email : Option String
  role : UserRole
deriving DecidableEq

/-- An `UPDATE` of the role, and the number of rows that match. -/
def updateRole (role : UserRole) (matched : User → Bool) (users : List User) : Nat × List User :=
  (users.countP matched,
    users.map fun user => if matched user then { user with role := role } else user)

section

variable (adminIds : List Int)

/-- A condition on a column that is NULL does not hold. -/
def promotes (user : User) : Bool :=
  user.tgUserId.any adminIds.contains && user.role = .user

def demotes (user : User) : Bool :=
  user.tgUserId.isSome && user.email.isNone && user.role = .admin &&
    (adminIds.isEmpty || user.tgUserId.any fun id => !adminIds.contains id)

/-- `sync_admin_roles`, with the numbers of the promoted and of the demoted. -/
def syncAdminRoles (users : List User) : (Nat × Nat) × List User :=
  let promoted :=
    if adminIds.isEmpty then (0, users) else updateRole .admin (promotes adminIds) users
  let demoted := updateRole .user (demotes adminIds) promoted.2
  ((promoted.1, demoted.1), demoted.2)

end
end CodexServer.AdminRoles
