import Mathlib.Data.List.Sort
import CodexServer.AdminRoles
import CodexServer.Vault

/-!
# The watch over the settings

Every worker of the server reads the connections again and again. `TGBotService._refresh_settings`
lists them under an advisory lock that `IntegrationService.save` takes too, brings the files of the
vault in line with them before it lets go of the lock, and its own bot after that. The files are
written by a thread, which is not stopped with the task that awaits it; a row is deleted without the
lock.
-/

namespace CodexServer.SettingsWatch

open AdminRoles (User syncAdminRoles)
open Vault (Text Integration IntegrationInput Platform System Directory sealSecret unsealSecret)

/-! ### The table -/

/-- `TelegramOptions` and the secret of the webhook, which is sealed: the `options` of a row as far
as they are read here. -/
structure TelegramOptions where
  webhookUrl : Text
  adminIds : List Int
  webhookSecret : Text
deriving DecidableEq

/-- A row with the columns that the vault does not need. -/
structure Entry where
  row : Integration
  updatedAt : Nat
  options : TelegramOptions
deriving DecidableEq

def Entry.pair (entry : Entry) : Nat × Nat := (entry.row.id, entry.updatedAt)

def Entry.isTelegram (entry : Entry) : Bool := entry.row.kind = .telegram

structure Table (Key : Type) where
  vault : System Key
  updatedAt : Nat → Nat
  options : Nat → TelegramOptions
  /-- How many changes have been committed; no column has it. -/
  version : Nat

section

variable {Key : Type} (platform : Platform Key) (collate : Text → Text → Bool)

def Table.entry (table : Table Key) (row : Integration) : Entry :=
  ⟨row, table.updatedAt row.id, table.options row.id⟩

/-- `IntegrationService.list`, in the order of the collation. -/
def Table.list (table : Table Key) : List Entry :=
  (table.vault.rows.insertionSort fun row other => collate row.name other.name = true).map
    table.entry

/-- The secret of the webhook: drawn with the row, and then kept. -/
def webhookSecret (table : Table Key) (entryId : Option Nat) (salt : Nat) (drawn : Text) :
    Except String Text :=
  match entryId with
  | some id => .ok (table.options id).webhookSecret
  | none => sealSecret platform table.vault.keyFile salt drawn

def newOptions (table : Table Key) (data : IntegrationInput) (adminIds : List Int)
    (entryId : Option Nat) (salt : Nat) (drawn : Text) : Except String TelegramOptions :=
  if data.kind = .telegram then do
    let secret ← webhookSecret platform table entryId salt drawn
    return ⟨data.webhookUrl, adminIds, secret⟩
  else .ok (table.options (entryId.getD table.vault.nextId))

/-- `IntegrationService.save` and the commit. `now()` is the beginning of the transaction; a row of
which no column has changed is not written. -/
def Table.save (table : Table Key) (data : IntegrationInput) (adminIds : List Int)
    (entryId : Option Nat) (salt webhookSalt : Nat) (drawn : Text) (startedAt : Nat) :
    Except String (Table Key) := do
  let vault ← Vault.save platform table.vault data entryId salt
  let options ← newOptions platform table data adminIds entryId webhookSalt drawn
  let id := entryId.getD table.vault.nextId
  if vault.rows = table.vault.rows ∧ options = table.options id then return table
  return {
    vault := vault
    updatedAt := Function.update table.updatedAt id startedAt
    options := Function.update table.options id options
    version := table.version + 1 }

/-- `delete_integration` -/
def Table.delete (table : Table Key) (id : Nat) : Option (Table Key) :=
  if table.vault.rows.any fun row => row.id = id then
    some { table with
      vault := { table.vault with rows := table.vault.rows.filter fun row => row.id ≠ id }
      version := table.version + 1 }
  else none

/-! ### A worker -/

/-- The settings of a process that are set here. -/
structure Settings where
  botToken : Text
  webhookSecret : Text
  webhookUrl : Text
  adminIds : List Int
deriving DecidableEq

def Settings.empty : Settings := ⟨[], [], [], []⟩

inductive Mode
  | webhook
  | polling
deriving DecidableEq

/-- A bot that has been connected, with the token it was made with. -/
structure Bot where
  token : Text
  mode : Mode
deriving DecidableEq

/-- `str((row.id, row.updated_at)) if row else "off"` -/
inductive Revision
  | off
  | row (pair : Nat × Nat)
deriving DecidableEq

def Revision.of : Option Entry → Revision
  | none => off
  | some entry => row entry.pair

/-- The rows of a statement and how many changes it has seen. -/
structure Snapshot where
  entries : List Entry
  version : Nat

def Snapshot.rows (snapshot : Snapshot) : List Integration := snapshot.entries.map Entry.row

/-- The first row of a bot. -/
def telegramEntry (entries : List Entry) : Option Entry := entries.find? Entry.isTelegram

/-- `runtime_revision` -/
def runtimeRevision (entries : List Entry) : List (Nat × Nat) :=
  (entries.filter fun entry => !entry.isTelegram).map Entry.pair

/-- Where a worker is with `_refresh_settings`. -/
inductive Phase
  | asleep
  /-- It holds the lock, and its thread is about to write the vault. -/
  | listed (snapshot : Snapshot)
  /-- The turns are interrupted and the connection is stopped. -/
  | leaving (entry : Option Entry)
  | reset (entry : Entry)
  | configured (entry : Entry)
  | synced (entry : Entry)
  | stopped

structure Worker where
  phase : Phase
  /-- `start` has returned. -/
  watching : Bool
  runtimeRevision : Option (List (Nat × Nat))
  revision : Option Revision
  settings : Settings
  bot : Option Bot

def Worker.start : Worker := ⟨.asleep, false, none, none, .empty, none⟩

namespace Worker

variable (worker : Worker)

def isListed : Bool :=
  match worker.phase with
  | .listed _ => true
  | _ => false

def isAsleep : Bool :=
  match worker.phase with
  | .asleep => true
  | _ => false

def isStopped : Bool :=
  match worker.phase with
  | .stopped => true
  | _ => false

/-- The refresh returns. -/
def rest : Worker := { worker with phase := .asleep, watching := true }

/-- The refresh raises: it is tried again, unless the process was just starting. -/
def fail : Worker := { worker with phase := if worker.watching then .asleep else .stopped }

/-- After the lock. -/
def compareRevision (entry : Option Entry) : Worker :=
  if some (Revision.of entry) = worker.revision then worker.rest
  else { worker with phase := .leaving entry }

/-- The lock is taken and the rows are listed. -/
def list (snapshot : Snapshot) : Worker :=
  if some (SettingsWatch.runtimeRevision snapshot.entries) = worker.runtimeRevision then
    worker.compareRevision (telegramEntry snapshot.entries)
  else { worker with phase := .listed snapshot }

/-- What the task does when its thread has returned. -/
def written (snapshot : Snapshot) : Worker :=
  compareRevision { worker with
    runtimeRevision := some (SettingsWatch.runtimeRevision snapshot.entries) }
    (telegramEntry snapshot.entries)

/-- `_stop_connection`, and the settings are cleared. -/
def stopConnection (entry : Option Entry) : Worker :=
  let off := { worker with bot := none, settings := .empty }
  match entry.filter fun entry => entry.row.enabled with
  | some entry => { off with phase := .reset entry }
  | none => { off with revision := some (Revision.of entry) }.rest

/-- The settings of the bot, as far as its secrets can be unsealed. -/
def configure (unsealed : Text → Except String Text) (entry : Entry) : Worker :=
  match unsealed entry.row.secret with
  | .error _ => worker.fail
  | .ok token =>
      match unsealed entry.options.webhookSecret with
      | .error _ => { worker with settings := { worker.settings with botToken := token } }.fail
      | .ok secret =>
          { worker with
            settings := ⟨token, secret, entry.options.webhookUrl, entry.options.adminIds⟩
            phase := .configured entry }

def mode : Mode :=
  if worker.settings.webhookUrl ≠ [] ∧ worker.settings.webhookSecret ≠ [] then .webhook
  else .polling

/-- `_start_configured`; Telegram knows the token and takes the webhook, or it does not. -/
def connect (entry : Entry) (accepted : Bool) : Worker :=
  if worker.settings.botToken = [] ∨ "123456:".toList <+: worker.settings.botToken then worker.rest
  else if accepted then
    { worker with
      bot := some ⟨worker.settings.botToken, worker.mode⟩
      revision := some (Revision.of (some entry)) }.rest
  else worker.rest

/-- `stop` -/
def stop : Worker := { worker with phase := .stopped, bot := none }

end Worker

/-! ### The server -/

/-- The last call of `materialize`; no variable has it. -/
structure Write where
  worker : Nat
  version : Nat
  /-- It has not raised. -/
  complete : Bool
deriving DecidableEq

structure State (Key : Type) where
  table : Table Key
  directory : Directory
  users : List User
  workers : List Worker
  /-- The threads whose task is gone. -/
  threads : List (Nat × Snapshot)
  /-- All rows that have been committed. -/
  committed : List Entry
  lastWrite : Option Write
  /-- Who has synced the roles last, and with which row. -/
  lastSync : Option (Nat × Entry)

def State.start (keyFile : Option Key) (directory : Directory) (users : List User) : State Key where
  table := ⟨⟨keyFile, [], 1⟩, fun _ => 0, fun _ => ⟨[], [], []⟩, 0⟩
  directory := directory
  users := users
  workers := []
  threads := []
  committed := []
  lastWrite := none
  lastSync := none

inductive Action
  | save (data : IntegrationInput) (adminIds : List Int) (entryId : Option Nat)
    (salt webhookSalt : Nat) (drawn : Text) (startedAt : Nat)
  | delete (id : Nat)
  /-- A process starts. -/
  | boot
  | list (id : Nat)
  /-- The thread of a worker writes the vault, and the worker goes on. -/
  | write (id : Nat)
  | stopConnection (id : Nat)
  | configure (id : Nat)
  /-- `sync_admin_roles` is committed, or PostgreSQL fails. -/
  | sync (id : Nat) (succeeds : Bool)
  | connect (id : Nat) (accepted : Bool)
  | stop (id : Nat)
  /-- A thread writes the vault after its task is gone. -/
  | writeLate (index : Nat)

namespace State

variable (state : State Key)

def unsealed : Text → Except String Text := unsealSecret platform state.table.vault.keyFile

def setWorker (id : Nat) (worker : Worker) : State Key :=
  { state with workers := state.workers.set id worker }

/-- Some worker holds the lock; a save holds it within one step. -/
def locked : Bool := state.workers.any Worker.isListed

/-- The change is committed. -/
def commit (table : Table Key) : State Key :=
  { state with
    table := table
    committed := state.committed ++ table.vault.rows.map table.entry }

/-- `materialize` -/
def materialize (id : Nat) (snapshot : Snapshot) : Except String Unit × State Key :=
  let (result, directory) :=
    Vault.materialize (state.unsealed platform) snapshot.rows state.directory
  (result, { state with
    directory := directory
    lastWrite := some ⟨id, snapshot.version, result.isOk⟩ })

def snapshot : Snapshot := ⟨state.table.list collate, state.table.version⟩

def step : Action → Option (State Key)
  | .save data adminIds entryId salt webhookSalt drawn startedAt =>
      if state.locked then none
      else
        ((state.table.save platform data adminIds entryId salt webhookSalt drawn
          startedAt).toOption).map state.commit
  | .delete id => (state.table.delete id).map state.commit
  | .boot => some { state with workers := state.workers ++ [.start] }
  | .list id => do
      let worker ← state.workers[id]?
      if worker.isAsleep && !state.locked then
        some (state.setWorker id (worker.list (state.snapshot collate)))
      else none
  | .write id => do
      let worker ← state.workers[id]?
      match worker.phase with
      | .listed snapshot =>
          let (result, after) := state.materialize platform id snapshot
          some (after.setWorker id (if result.isOk then worker.written snapshot else worker.fail))
      | _ => none
  | .stopConnection id => do
      let worker ← state.workers[id]?
      match worker.phase with
      | .leaving entry => some (state.setWorker id (worker.stopConnection entry))
      | _ => none
  | .configure id => do
      let worker ← state.workers[id]?
      match worker.phase with
      | .reset entry =>
          some (state.setWorker id (worker.configure (state.unsealed platform) entry))
      | _ => none
  | .sync id succeeds => do
      let worker ← state.workers[id]?
      match worker.phase with
      | .configured entry =>
          if succeeds then
            some (setWorker { state with
                users := (syncAdminRoles worker.settings.adminIds state.users).2
                lastSync := some (id, entry) }
              id { worker with phase := .synced entry })
          else some (state.setWorker id worker.fail)
      | _ => none
  | .connect id accepted => do
      let worker ← state.workers[id]?
      match worker.phase with
      | .synced entry => some (state.setWorker id (worker.connect entry accepted))
      | _ => none
  | .stop id => do
      let worker ← state.workers[id]?
      if worker.watching && !worker.isStopped then
        match worker.phase with
        | .listed snapshot =>
            some (setWorker { state with threads := state.threads ++ [(id, snapshot)] } id
              worker.stop)
        | _ => some (state.setWorker id worker.stop)
      else none
  | .writeLate index => do
      let (id, snapshot) ← state.threads[index]?
      some { (state.materialize platform id snapshot).2 with
        threads := state.threads.eraseIdx index }

end State

end
end CodexServer.SettingsWatch
