import CodexServer.RateLimit

/-!
# The runtime limits and their cache

One row holds the limits. A process keeps the last value it has seen for a while: `get` reads the
row when that has run out, and `update_limits` remembers what it has saved. Between its `SELECT` and
its `remember` a call of `get` waits, and so does an update between its commit and its `remember`.
-/

namespace CodexServer

/-- The row of `runtime_settings`. -/
structure RuntimeLimits.RuntimeSetting where
  webUserActive : Nat
  webUserHourly : Nat
  tgGuestActive : Nat
  tgGuestHourly : Nat
  tgGuestMaxUploadMb : Nat

namespace RateLimit.RuntimeSettings

open RuntimeLimits (RuntimeSetting)

/-- `RuntimeSettings()`, with `TG_BOT_API_DOWNLOAD_LIMIT_MB`. -/
def default : RuntimeSettings := ⟨⟨2, 0⟩, ⟨3, 0⟩, 20⟩

def fromRow (row : RuntimeSetting) : RuntimeSettings where
  webUser := ⟨row.webUserActive, row.webUserHourly⟩
  tgGuest := ⟨row.tgGuestActive, row.tgGuestHourly⟩
  tgGuestMaxUploadMb := row.tgGuestMaxUploadMb

/-- `apply_to` writes every column. -/
def applyTo (data : RuntimeSettings) : RuntimeSetting where
  webUserActive := data.webUser.active
  webUserHourly := data.webUser.hourly
  tgGuestActive := data.tgGuest.active
  tgGuestHourly := data.tgGuest.hourly
  tgGuestMaxUploadMb := data.tgGuestMaxUploadMb

@[simp]
theorem fromRow_applyTo (data : RuntimeSettings) : fromRow data.applyTo = data := rfl

end RateLimit.RuntimeSettings

end CodexServer

namespace CodexServer.RuntimeLimits

open RateLimit (RuntimeSettings)

/-! ### The row -/

structure Table where
  /-- The committed versions of the row, oldest first; there may be no row yet. -/
  versions : List RuntimeSetting
  /-- The update that holds the lock of the row. -/
  writer : Option Nat

namespace Table

variable (table : Table)

/-- How many commits the row has seen. -/
def version : Nat := table.versions.length

def row : Option RuntimeSetting := table.versions.getLast?

/-- What a reader made of the row after so many commits. -/
def valueAt : Nat → RuntimeSettings
  | 0 => .default
  | version + 1 => table.versions[version]?.elim .default RuntimeSettings.fromRow

/-- `load` -/
def load : RuntimeSettings := table.row.elim .default RuntimeSettings.fromRow

end Table

/-! ### `RuntimeSettingsService` -/

/-- A value, and after which commit it was the value of the row. -/
structure Seen where
  value : RuntimeSettings
  version : Nat

structure Service where
  cached : Option Seen
  expiresAt : ℚ

/-- The cached value while it may be used. -/
def Service.fresh (service : Service) (clock : ℚ) : Option Seen :=
  service.cached.filter fun _ => clock < service.expiresAt

def remember (ttl clock : ℚ) (seen : Seen) : Service := ⟨some seen, clock + ttl⟩

/-! ### The calls of a process -/

inductive GetPhase
  | loading
  /-- The row is read, the session not closed. -/
  | loaded (seen : Seen)
  | returned (seen : Seen)
  | failed

structure GetCall where
  /-- The versions that the updates of this process had returned when the call began. -/
  after : List Nat
  phase : GetPhase

def GetCall.result (call : GetCall) : Option Seen :=
  match call.phase with
  | .returned seen => some seen
  | _ => none

inductive UpdatePhase
  | begun
  /-- `SELECT FOR UPDATE` has found the row. -/
  | locked
  /-- It has found none, and locked nothing. -/
  | missing
  | flushed
  | committed (version : Nat)
  | returned (version : Nat)
  | failed
deriving DecidableEq

structure UpdateCall where
  data : RuntimeSettings
  phase : UpdatePhase

structure Process where
  clock : ℚ
  table : Table
  service : Service
  gets : List GetCall
  updates : List UpdateCall

namespace Process

def start (versions : List RuntimeSetting) : Process :=
  ⟨0, ⟨versions, none⟩, ⟨none, 0⟩, [], []⟩

variable (process : Process)

/-- The versions that `update_limits` has returned. -/
def returned : List Nat :=
  process.updates.filterMap fun call => match call.phase with
    | .returned version => some version
    | _ => none

def setGet (id : Nat) (call : GetCall) : Process :=
  { process with gets := process.gets.set id call }

def setUpdate (id : Nat) (call : UpdateCall) : Process :=
  { process with updates := process.updates.set id call }

/-- `writer` keeps the lock unless it is this one. -/
def unlock (id : Nat) : Table :=
  { process.table with writer := process.table.writer.filter fun writer => writer ≠ id }

end Process

inductive GetAction
  | load
  | remember
  | fail

inductive UpdateAction
  | lock
  | flush
  | commit
  | remember
  | fail

inductive Action
  | elapse (duration : ℚ)
  /-- Another process commits. -/
  | commitElsewhere (data : RuntimeSettings)
  | beginGet
  | beginUpdate (data : RuntimeSettings)
  | get (id : Nat) (action : GetAction)
  | update (id : Nat) (action : UpdateAction)

section

variable (ttl : ℚ) (process : Process)

/-- A call of `get` up to its first wait. -/
def beginGet : GetCall where
  after := process.returned
  phase := match process.service.fresh process.clock with
    | some seen => .returned seen
    | none => .loading

/-- A step of a call of `get`. -/
def stepGet (id : Nat) (call : GetCall) : GetAction → Option Process
  | .load => match call.phase with
      | .loading => some (process.setGet id
          { call with phase := .loaded ⟨process.table.load, process.table.version⟩ })
      | _ => none
  | .remember => match call.phase with
      | .loaded seen => some { process.setGet id { call with phase := .returned seen } with
          service := remember ttl process.clock seen }
      | _ => none
  | .fail => match call.phase with
      | .loading | .loaded _ => some (process.setGet id { call with phase := .failed })
      | _ => none

/-- A step of `update_limits`. A lock that another update holds is waited for, and so is the row
that another update is inserting; when it is there the `INSERT` fails. -/
def stepUpdate (id : Nat) (call : UpdateCall) : UpdateAction → Option Process
  | .lock => match call.phase with
      | .begun =>
          if process.table.row.isNone then some (process.setUpdate id { call with phase := .missing })
          else if process.table.writer.isNone then
            some { process.setUpdate id { call with phase := .locked } with
              table := { process.table with writer := some id } }
          else none
      | _ => none
  | .flush => match call.phase with
      | .locked => some (process.setUpdate id { call with phase := .flushed })
      | .missing =>
          if process.table.row.isSome then some (process.setUpdate id { call with phase := .failed })
          else if process.table.writer.isNone then
            some { process.setUpdate id { call with phase := .flushed } with
              table := { process.table with writer := some id } }
          else none
      | _ => none
  | .commit => match call.phase with
      | .flushed =>
          let versions := process.table.versions ++ [call.data.applyTo]
          some { process.setUpdate id { call with phase := .committed versions.length } with
            table := { process.unlock id with versions := versions } }
      | _ => none
  | .remember => match call.phase with
      | .committed version =>
          some { process.setUpdate id { call with phase := .returned version } with
            service := remember ttl process.clock ⟨call.data, version⟩ }
      | _ => none
  | .fail => match call.phase with
      | .returned _ | .failed => none
      | _ => some { process.setUpdate id { call with phase := .failed } with
          table := process.unlock id }

def step : Action → Option Process
  | .elapse duration =>
      if 0 ≤ duration then some { process with clock := process.clock + duration } else none
  | .commitElsewhere data =>
      if process.table.writer.isNone then
        some { process with
          table := { process.table with versions := process.table.versions ++ [data.applyTo] } }
      else none
  | .beginGet => some { process with gets := process.gets ++ [beginGet process] }
  | .beginUpdate data => some { process with updates := process.updates ++ [⟨data, .begun⟩] }
  | .get id action => process.gets[id]?.bind fun call => stepGet ttl process id call action
  | .update id action => process.updates[id]?.bind fun call => stepUpdate ttl process id call action

end
end CodexServer.RuntimeLimits
