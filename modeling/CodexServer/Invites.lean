import CodexServer.Registration

/-!
# Invites

`InviteService.redeem` and `InviteService.revoke`, each in a transaction of its own. Redeeming locks
the row it reads; revoking reads without a lock, and its `DELETE` is sent by the flush of the commit
and looks at nothing but the id.
-/

open Versioned

namespace CodexServer.Invites

open Registration (InviteRow)

/-! ### The table -/

inductive Statement
  /-- `SELECT … FOR UPDATE` -/
  | lock
  /-- `UPDATE … SET used_at, used_by_user_id WHERE id` -/
  | redeem (usedAt userId : Nat)
  /-- `DELETE … WHERE id` -/
  | delete

/-- The version that a statement makes of a row; a deleted row has none. -/
def Statement.apply : Statement → InviteRow → Option InviteRow
  | lock, row => some row
  | redeem usedAt userId, row => some { row with usedAt := some usedAt, usedByUserId := some userId }
  | delete, _ => none

/-- The version `none` is that of a deleted row, which no statement finds. -/
def table : Schema (Option InviteRow) Unit Statement Empty (Option String) where
  update statement version := version.map fun row => (statement.apply row, ())
  insert payload _ := payload.elim
  live version := version.isSome
  group version := version.map InviteRow.token

/-! ### The transactions -/

inductive InviteError
  | notFound
  | used
  | expired
deriving DecidableEq

/-- What a transaction does next. -/
inductive Phase
  /-- The `SELECT … FOR UPDATE` of `redeem`. -/
  | selecting (token : String) (userId : Nat)
  /-- The flush of the row it has stamped. -/
  | stamping (invite usedAt userId : Nat)
  /-- The `COMMIT` of whoever has called `redeem`. -/
  | redeemed (invite : Nat)
  /-- `session.get` -/
  | reading (invite : Nat)
  /-- `revoke` has returned `True`: the `DELETE`, and the `COMMIT` after it. -/
  | deleting (invite : Nat)
  | deleted (invite : Nat)
  | committed
  /-- `revoke` has returned `False`. -/
  | refused
  /-- With no error of its own: what an awaited call raised. -/
  | raised (error : Option InviteError)
deriving DecidableEq

def Phase.ended : Phase → Bool
  | committed | refused | raised _ => true
  | _ => false

/-- A commit. A redemption goes with the times that the row has. -/
inductive Commit
  | redeemed (invite usedAt expiresAt : Nat)
  | revoked (invite : Nat)
deriving DecidableEq

structure System where
  invites : Table Nat (Option InviteRow) Unit
  phases : List Phase
  log : List Commit

namespace System

variable (system : System) (index : Nat)

def setPhase (phase : Phase) : System := { system with phases := system.phases.set index phase }

/-- The session is left without a commit. -/
def leave (phase : Phase) : System where
  invites := system.invites.rollback index
  phases := system.phases.set index phase
  log := system.log

/-- `redeem` up to its flush: the checks at `now`, the stamp at `usedAt`. -/
def select (token : String) (userId now usedAt : Nat) : Option System :=
  match system.invites.find? index fun version => version.any fun row => row.token = token with
  | none => some (system.leave index (.raised (some .notFound)))
  | some (invite, _) =>
      match Invites.table.execUpdate system.invites index invite .lock with
      | none => none
      | some (false, _) => some (system.leave index (.raised (some .notFound)))
      | some (true, invites) =>
          match (invites.view index invite).join with
          | none => some (system.leave index (.raised (some .notFound)))
          | some row =>
              if row.usedAt.isSome then some (system.leave index (.raised (some .used)))
              else if row.expiresAt ≤ now then
                some (system.leave index (.raised (some .expired)))
              else some
                { system.setPhase index (.stamping invite usedAt userId) with invites := invites }

def stamp (invite usedAt userId : Nat) : Option System :=
  match Invites.table.execUpdate system.invites index invite (.redeem usedAt userId) with
  | none => none
  | some (true, invites) =>
      some { system.setPhase index (.redeemed invite) with invites := invites }
  | some (false, _) => some (system.leave index (.raised none))

/-- `session.get`, and the check of `used_at`. -/
def read (invite : Nat) : System :=
  match (system.invites.view index invite).join with
  | none => system.leave index .refused
  | some row =>
      if row.usedAt.isSome then system.leave index .refused
      else system.setPhase index (.deleting invite)

/-- No row deleted is a warning. -/
def delete (invite : Nat) : Option System :=
  match Invites.table.execUpdate system.invites index invite .delete with
  | none => none
  | some (_, invites) =>
      some { system.setPhase index (.deleted invite) with invites := invites }

/-- What a redemption has in its row. -/
def redemption (invite : Nat) : List Commit :=
  (((system.invites.view index invite).join).bind fun row =>
    row.usedAt.map fun usedAt => Commit.redeemed invite usedAt row.expiresAt).toList

def commit (commits : List Commit) : System where
  invites := system.invites.commit index
  phases := system.phases.set index .committed
  log := system.log ++ commits

/-- The next statement of a transaction, with the times it reads. -/
def goOn (now usedAt : Nat) : Phase → Option System
  | .selecting token userId => system.select index token userId now usedAt
  | .stamping invite usedAt userId => system.stamp index invite usedAt userId
  | .redeemed invite => some (system.commit index (system.redemption index invite))
  | .reading invite => some (system.read index invite)
  | .deleting invite => system.delete index invite
  | .deleted invite => some (system.commit index [.revoked invite])
  | .committed | .refused | .raised _ => none

end System

inductive Action
  | redeem (token : String) (userId : Nat)
  | revoke (invite : Nat)
  | goOn (index now usedAt : Nat)
  /-- What a transaction awaits raises, or its session is left. -/
  | raise (index : Nat)

def step (system : System) : Action → Option System
  | .redeem token userId =>
      some { system with phases := system.phases ++ [.selecting token userId] }
  | .revoke invite => some { system with phases := system.phases ++ [.reading invite] }
  | .goOn index now usedAt =>
      (system.phases[index]?).bind fun phase => system.goOn index now usedAt phase
  | .raise index =>
      match system.phases[index]? with
      | some phase => if phase.ended then none else some (system.leave index (.raised none))
      | none => none

/-- The invites before the first transaction. -/
structure Database where
  invites : Nat → Option InviteRow
  next : Nat
  below : ∀ key, next ≤ key → invites key = none

def Database.start (database : Database) : System where
  invites := ⟨fun key => (database.invites key).map some, fun _ => none, fun _ => [], database.next⟩
  phases := []
  log := []

end CodexServer.Invites
