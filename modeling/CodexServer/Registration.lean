import CodexServer.Library.Versioned
import CodexServer.Telegram
import CodexServer.TelegramHandler

/-!
# Registration

`AuthRPC.register` and `AdminRPC.create_user`. Each call has a database session of its own and
executes one statement after another; the index over the emails and the locks of the rows are those
of the tables. A call may raise wherever it awaits, and leaving the session rolls back what is not
committed.
-/

open Versioned

namespace CodexServer.Registration

open TelegramHandler (UserRole)

/-! ### The tables -/

structure UserRow where
  email : Option String
  passwordHash : Option String
  displayName : Option String
  role : UserRole
deriving DecidableEq

/-- `bool(user.password_hash)` -/
def UserRow.hasPassword (row : UserRow) : Bool := row.passwordHash.any (· ≠ "")

structure InviteRow where
  token : String
  expiresAt : Nat
  usedAt : Option Nat
  usedByUserId : Option Nat
deriving DecidableEq

/-- What the flush of `set_password_hash` writes: the hash, and the columns changed before it. -/
structure UserUpdate where
  role : Option UserRole
  displayName : Option String
  passwordHash : String

structure UserInsert where
  email : String
  displayName : Option String

def users : Schema UserRow Unit UserUpdate UserInsert (Option String) where
  update statement row :=
    some ({ row with
      role := statement.role.getD row.role
      displayName := statement.displayName <|> row.displayName
      passwordHash := some statement.passwordHash }, ())
  insert payload _ := (⟨some payload.email, none, payload.displayName, .user⟩, ())
  live row := row.email.isSome
  group := UserRow.email

inductive InviteUpdate
  /-- `SELECT … FOR UPDATE` -/
  | lock
  | redeem (usedAt userId : Nat)

def InviteUpdate.apply : InviteUpdate → InviteRow → InviteRow
  | lock, row => row
  | redeem usedAt userId, row => { row with usedAt := some usedAt, usedByUserId := some userId }

def invites : Schema InviteRow Unit InviteUpdate Empty String where
  update statement row := some (statement.apply row, ())
  insert payload _ := payload.elim
  live _ := true
  group := InviteRow.token

/-! ### The calls -/

inductive ConnectCode
  | invalidArgument
  | resourceExhausted
  | permissionDenied
  | alreadyExists
  | notFound
  | failedPrecondition
deriving DecidableEq

structure ConnectError where
  code : ConnectCode
  message : String
deriving DecidableEq

/-- A `User` in the session, as it was loaded. -/
structure Loaded where
  id : Nat
  row : UserRow
deriving DecidableEq

/-- What a call does next. -/
inductive Phase
  /-- `get_by_email` -/
  | lookup
  /-- The `INSERT` of `get_or_create_by_email`, and the `SELECT` after it. -/
  | inserting
  | selecting
  /-- The `SELECT … FOR UPDATE` of `redeem`, and its flush. -/
  | redeeming (user : Loaded) (token : String)
  | spending (user : Loaded) (invite : Nat)
  /-- `hash_password` -/
  | hashing (user : Loaded) (invite : Option Nat)
  /-- `set_password_hash` -/
  | setting (user : Loaded) (invite : Option Nat) (passwordHash : String)
  | committing (user : Nat) (invite : Option Nat)
  /-- `throttle.clear` and the token, or `db.refresh`. -/
  | finishing
  | returned
  /-- With no error of its own: what an awaited call raised. -/
  | raised (error : Option ConnectError)
deriving DecidableEq

structure Call where
  email : String
  displayName : Option String
  role : UserRole
  /-- `none` for the administrator, and in `create_user`. -/
  inviteToken : Option String
  phase : Phase := .lookup
  /-- How many calls had committed when it looked the email up. -/
  seen : Nat := 0

/-- Where a call stands that has its user. -/
def Call.loaded (call : Call) (user : Loaded) : Call :=
  { call with phase := call.inviteToken.elim (.hashing user none) (.redeeming user) }

inductive Request
  | register (email password inviteToken displayName : String)
  | createUser (email password displayName : String) (role : UserRole)

structure Env where
  /-- `TypeAdapter(EmailStr)` -/
  validateEmail : String → Option String
  /-- `str.lower` -/
  lower : String → String
  adminEmail : String

/-- `text.strip() or None` -/
def stripped (text : String) : Option String :=
  if Telegram.strip text = "" then none else some (Telegram.strip text)

namespace Env

variable (env : Env)

def validatedEmail (raw : String) : Except ConnectError String :=
  match env.validateEmail (env.lower (Telegram.strip raw)) with
  | some email => .ok email
  | none => .error ⟨.invalidArgument, "valid email required"⟩

def checkPassword (password : String) : Except ConnectError Unit :=
  if password.length < 8 then .error ⟨.invalidArgument, "password must be ≥ 8 chars"⟩ else .ok ()

/-- What is checked of a request before the database is asked. -/
def accept : Request → Except ConnectError Call
  | .register rawEmail password rawToken rawName => do
      let email ← env.validatedEmail rawEmail
      checkPassword password
      let adminBypass := email = env.lower (Telegram.strip env.adminEmail) && email ≠ ""
      let call : Call := ⟨email, stripped rawName, .user, stripped rawToken, .lookup, 0⟩
      if adminBypass then pure { call with role := .admin, inviteToken := none }
      else if call.inviteToken.isNone then throw ⟨.invalidArgument, "invite_token required"⟩
      else pure call
  | .createUser rawEmail password rawName role => do
      let email ← env.validatedEmail rawEmail
      checkPassword password
      pure ⟨email, stripped rawName, role, none, .lookup, 0⟩

/-- The error of `throttle.check` and of `require_admin`. -/
def notAdmitted : Request → ConnectError
  | .register .. => ⟨.resourceExhausted, "too many failed attempts; try again in 15min"⟩
  | .createUser .. => ⟨.permissionDenied, "admin role required"⟩

end Env

/-! ### The calls at work -/

/-- A commit: the row whose password it has set, before and after, and the invite it has redeemed. -/
structure Registered where
  call : Nat
  email : String
  user : Nat
  before : Option UserRow
  after : Option UserRow
  invite : Option Nat
  redeemed : Option InviteRow

structure System where
  users : Table Nat UserRow Unit
  invites : Table Nat InviteRow Unit
  calls : List Call
  log : List Registered

namespace System

variable (system : System) (index : Nat) (call : Call)

def setCall : System := { system with calls := system.calls.set index call }

/-- An exception leaves the session. -/
def raise (error : Option ConnectError) : System where
  users := system.users.rollback index
  invites := system.invites.rollback index
  calls := system.calls.set index { call with phase := .raised error }
  log := system.log

/-- The `WHERE email = :email` of a `SELECT`. -/
def findByEmail : Option Loaded :=
  (system.users.find? index fun row => row.email = some call.email).map fun found =>
    ⟨found.1, found.2⟩

def alreadyExists : ConnectError := ⟨.alreadyExists, "email already registered"⟩

/-- `get_by_email`, and the check of the password. -/
def lookup : System :=
  let looked := { call with seen := system.log.length }
  match system.findByEmail index call with
  | some user =>
      if user.row.hasPassword then system.raise index looked (some alreadyExists)
      else system.setCall index (looked.loaded user)
  | none => system.setCall index { looked with phase := .inserting }

/-- The `INSERT` waits for a transaction that is writing the email. -/
def insert : Option System :=
  match Registration.users.execInsertOrNothing system.users index ⟨call.email, call.displayName⟩ with
  | some (some id, table) =>
      let row := (Registration.users.insert ⟨call.email, call.displayName⟩ id).1
      some { system.setCall index (call.loaded ⟨id, row⟩) with users := table }
  | some (none, table) =>
      some { system.setCall index { call with phase := .selecting } with users := table }
  | none => none

/-- The row of somebody else; its password is not looked at. -/
def select : System :=
  match system.findByEmail index call with
  | some user => system.setCall index (call.loaded user)
  | none => system.raise index call none

/-- `redeem` up to its checks. The row is locked, whether it is free or not. -/
def redeem (user : Loaded) (token : String) (now : Nat) : Option System :=
  match system.invites.find? index (fun row => row.token = token) with
  | none => some (system.raise index call (some ⟨.notFound, "invite not found"⟩))
  | some (key, _) =>
      match Registration.invites.execUpdate system.invites index key .lock with
      | none => none
      | some (locked, table) =>
          match (table.view index key).filter fun _ => locked with
          | none => some (system.raise index call (some ⟨.notFound, "invite not found"⟩))
          | some invite =>
              if invite.usedAt.isSome then
                some (system.raise index call (some ⟨.failedPrecondition, "invite already used"⟩))
              else if invite.expiresAt ≤ now then
                some (system.raise index call (some ⟨.failedPrecondition, "invite expired"⟩))
              else some
                { system.setCall index { call with phase := .spending user key } with
                  invites := table }

def spend (user : Loaded) (key now : Nat) : Option System :=
  match Registration.invites.execUpdate system.invites index key (.redeem now user.id) with
  | none => none
  | some (true, table) =>
      some { system.setCall index { call with phase := .hashing user (some key) } with
        invites := table }
  | some (false, _) => some (system.raise index call none)

/-- The columns of `user` that are not what was loaded. -/
def changes (user : Loaded) (passwordHash : String) : UserUpdate where
  role := if call.role = user.row.role then none else some call.role
  displayName :=
    if user.row.displayName.all (· = "") then call.displayName else none
  passwordHash := passwordHash

def setPasswordHash (user : Loaded) (invite : Option Nat) (passwordHash : String) :
    Option System :=
  match Registration.users.execUpdate system.users index user.id
      (changes call user passwordHash) with
  | none => none
  | some (true, table) =>
      some { system.setCall index { call with phase := .committing user.id invite } with
        users := table }
  | some (false, _) => some (system.raise index call none)

def commit (user : Nat) (invite : Option Nat) : System where
  users := system.users.commit index
  invites := system.invites.commit index
  calls := system.calls.set index { call with phase := .finishing }
  log := system.log ++ [{
    call := index
    email := call.email
    user := user
    before := system.users.committed user
    after := system.users.view index user
    invite := invite
    redeemed := invite.bind (system.invites.view index) }]

/-- The next statement of a call, with the time and the hash it gets. -/
def goOn (now : Nat) (passwordHash : String) : Option System :=
  match call.phase with
  | .lookup => some (system.lookup index call)
  | .inserting => system.insert index call
  | .selecting => some (system.select index call)
  | .redeeming user token => system.redeem index call user token now
  | .spending user key => system.spend index call user key now
  | .hashing user invite =>
      if passwordHash = "" then none
      else some (system.setCall index { call with phase := .setting user invite passwordHash })
  | .setting user invite hash => system.setPasswordHash index call user invite hash
  | .committing user invite => some (system.commit index call user invite)
  | .finishing => some (system.setCall index { call with phase := .returned })
  | .returned | .raised _ => none

end System

inductive Action
  | begin (request : Request) (admitted : Bool)
  | goOn (index now : Nat) (passwordHash : String)
  /-- What a call awaits raises, or the call is cancelled there. -/
  | raise (index : Nat)

def step (env : Env) (system : System) : Action → Option System
  | .begin request admitted =>
      let accepted := if admitted then env.accept request else .error (Env.notAdmitted request)
      let call := match accepted with
        | .ok call => call
        | .error error => ⟨"", none, .user, none, .raised (some error), 0⟩
      some { system with calls := system.calls ++ [call] }
  | .goOn index now passwordHash =>
      (system.calls[index]?).bind fun call => system.goOn index call now passwordHash
  | .raise index =>
      match system.calls[index]? with
      | some call =>
          match call.phase with
          | .returned | .raised _ => none
          | _ => some (system.raise index call none)
      | none => none

/-- The tables before the first call: no email and no token is there twice. -/
structure Database where
  users : Nat → Option UserRow
  invites : Nat → Option InviteRow
  nextUser : Nat
  nextInvite : Nat
  usersBelow : ∀ key, nextUser ≤ key → users key = none
  invitesBelow : ∀ key, nextInvite ≤ key → invites key = none
  emailUnique : ∀ {key other row otherRow}, users key = some row → users other = some otherRow →
    row.email.isSome → row.email = otherRow.email → key = other
  tokenUnique : ∀ {key other row otherRow}, invites key = some row →
    invites other = some otherRow → row.token = otherRow.token → key = other

def Database.start (database : Database) : System where
  users := ⟨database.users, fun _ => none, fun _ => [], database.nextUser⟩
  invites := ⟨database.invites, fun _ => none, fun _ => [], database.nextInvite⟩
  calls := []
  log := []

end CodexServer.Registration
