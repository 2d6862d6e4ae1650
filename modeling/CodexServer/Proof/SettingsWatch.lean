import Mathlib
import CodexServer.Proof.AdminRoles
import CodexServer.Proof.Vault
import CodexServer.SettingsWatch

/-!
# The settings come into force

The lock orders the snapshots and what is written from them, as long as no task is stopped in the
middle of a refresh. The bots and the roles follow without the lock; what brings them in line is that
a row whose columns have changed never has its old revision again. The revision of all rows may come
back, when a row is deleted.
-/

open Transition

namespace CodexServer.SettingsWatch

open AdminRoles (User syncAdminRoles)
open Vault (Text Integration IntegrationInput Platform System Directory Kept WellFormed Sealed
  require_eq_ok unsealSecret isActive Exact)

/-! ### The rows of a save -/

section

variable {Key : Type} {platform : Platform Key} {system next : System Key}
  {data : IntegrationInput} {entryId : Option Nat} {salt : Nat}

theorem savedRow_kind {row : Option Integration} {saved : Integration}
    (h : Vault.savedRow platform system data entryId row salt = .ok saved) :
    saved.id = row.elim system.nextId Integration.id ∧ saved.kind = data.kind := by
  simp only [Vault.savedRow, Except.bind_eq_ok, require_eq_ok] at h
  obtain ⟨host, -, username, -, -, -, -, -, -, -, -, -, ⟨secret, given⟩, -, hrow⟩ := h
  cases hrow
  exact ⟨rfl, rfl⟩

/-- What a save does to the rows: the one that is saved is new or takes the place of one of its kind,
and there is no second row of a bot. -/
structure Saves (system next : System Key) (entryId : Option Nat) (saved : Integration) : Prop where
  keyFile : next.keyFile = system.keyFile
  id : saved.id = entryId.getD system.nextId
  nextId : system.nextId ≤ next.nextId
  below : saved.id < next.nextId
  rows : ∀ row ∈ next.rows, row = saved ∨ row ∈ system.rows ∧ some row.id ≠ entryId
  single : saved.kind = .telegram → ∀ item ∈ system.rows, some item.id ≠ entryId →
    item.kind ≠ .telegram

theorem save_saves (hkept : Kept platform system)
    (h : Vault.save platform system data entryId salt = .ok next) :
    ∃ saved, Saves system next entryId saved := by
  simp only [Vault.save, Except.bind_eq_ok, require_eq_ok] at h
  obtain ⟨row, hentry, -, -, -, -, -, -, -, hbots, saved, hsaved, hnext⟩ := h
  obtain ⟨hid, hkind⟩ := savedRow_kind hsaved
  have hsingle : saved.kind = .telegram → ∀ item ∈ system.rows, some item.id ≠ entryId →
      item.kind ≠ .telegram := by
    intro htelegram item hitem hother hsame
    simp only [Vault.anyOther, Bool.not_eq_true', Bool.and_eq_false_iff, decide_eq_false_iff_not,
      List.any_eq_false] at hbots
    refine hbots.elim (fun hbot => hbot (hkind.symm.trans htelegram)) fun hnone => ?_
    simpa [hother, hsame, ← hkind, htelegram] using hnone item hitem
  refine ⟨saved, ?_⟩
  cases row with
  | none =>
      cases entryId with
      | some id =>
          simp only [Vault.findEntry] at hentry
          split at hentry <;> cases hentry
      | none =>
          cases hnext
          refine ⟨rfl, hid, Nat.le_succ _, ?_, fun item hitem => ?_, hsingle⟩
          · simp [hid]
          · rcases List.mem_append.mp hitem with hold | hnew
            · exact .inr ⟨hold, by simp⟩
            · exact .inl (List.mem_singleton.mp hnew)
  | some row =>
      cases entryId with
      | none => cases hentry
      | some id =>
          simp only [Vault.findEntry] at hentry
          split at hentry
          · cases hentry
          · rename_i found hfound
            cases hentry
            have hmem : row ∈ system.rows := List.mem_of_find?_eq_some hfound
            have hrow : row.id = id := by
              simpa using List.find?_some hfound
            cases hnext
            refine ⟨rfl, hid.trans hrow, le_rfl, ?_, fun item hitem => ?_, hsingle⟩
            · rw [hid]
              exact hkept.below row hmem
            · obtain ⟨old, hold, rfl⟩ := List.mem_map.mp hitem
              split
              · exact .inl rfl
              · rename_i hother
                exact .inr ⟨hold, fun hsame => hother ((Option.some.inj hsame).trans hrow.symm)⟩

theorem kept_delete (h : Kept platform system) (id : Nat) :
    Kept platform { system with rows := system.rows.filter fun row => row.id ≠ id } where
  formed := fun row hrow => h.formed row (List.mem_of_mem_filter hrow)
  sealed := fun row hrow => h.sealed row (List.mem_of_mem_filter hrow)
  below := fun row hrow => h.below row (List.mem_of_mem_filter hrow)
  ids := h.ids.sublist (List.filter_sublist.map _)
  names := h.names.sublist (List.filter_sublist.map _)

end

/-! ### The table and what has been in it -/

section

variable {Key : Type} {platform : Platform Key} {collate : Text → Text → Bool}

/-- What has been committed: a revision of a row says what is in it, whenever it was. -/
structure Recorded (platform : Platform Key) (state : State Key) : Prop where
  kept : Kept platform state.table.vault
  single : ∀ row ∈ state.table.vault.rows, ∀ other ∈ state.table.vault.rows,
    row.kind = .telegram → other.kind = .telegram → row = other
  present : ∀ row ∈ state.table.vault.rows, state.table.entry row ∈ state.committed
  determined : ∀ entry ∈ state.committed, ∀ other ∈ state.committed,
    entry.pair = other.pair → entry = other
  below : ∀ entry ∈ state.committed, entry.row.id < state.table.vault.nextId

/-- The revision of a row that was there, and is no longer. -/
def Gone (state : State Key) (pair : Nat × Nat) : Prop :=
  (∃ entry ∈ state.committed, entry.pair = pair) ∧
    ∀ row ∈ state.table.vault.rows, (state.table.entry row).pair ≠ pair

/-- What a change of the table leaves as it is. -/
structure Advances (state next : State Key) : Prop where
  committed : ∀ entry ∈ state.committed, entry ∈ next.committed
  gone : ∀ pair, Gone state pair → Gone next pair
  version : state.table.version ≤ next.table.version
  keyFile : next.table.vault.keyFile = state.table.vault.keyFile
  synced : state.lastSync.isSome = true → next.lastSync.isSome = true

variable {state next : State Key} {worker after : Worker} {id : Nat} {entry : Entry}

theorem Advances.of_table (htable : next.table = state.table)
    (hcommitted : next.committed = state.committed)
    (hsynced : state.lastSync.isSome = true → next.lastSync.isSome = true) :
    Advances state next where
  committed := by simp [hcommitted]
  gone := by simp [Gone, hcommitted, htable]
  version := by rw [htable]
  keyFile := by rw [htable]
  synced := hsynced

theorem Recorded.of_table (h : Recorded platform state) (htable : next.table = state.table)
    (hcommitted : next.committed = state.committed) : Recorded platform next := by
  constructor
  · rw [htable]
    exact h.kept
  · rw [htable]
    exact h.single
  · rw [htable, hcommitted]
    exact h.present
  · rw [hcommitted]
    exact h.determined
  · rw [htable, hcommitted]
    exact h.below

@[simp] theorem entry_row (table : Table Key) (row : Integration) : (table.entry row).row = row := rfl

@[simp] theorem isTelegram_entry (table : Table Key) (row : Integration) :
    (table.entry row).isTelegram = decide (row.kind = .telegram) := rfl

@[simp] theorem commit_table (table : Table Key) : (state.commit table).table = table := rfl

theorem mem_committed {table : Table Key} : entry ∈ (state.commit table).committed ↔
    entry ∈ state.committed ∨ ∃ row ∈ table.vault.rows, table.entry row = entry := by
  simp [State.commit]

/-- A commit of rows of which at most one is new, with a revision that no row has had. -/
theorem Recorded.commit (h : Recorded platform state) {table : Table Key}
    (saved : Option Integration) (hkept : Kept platform table.vault)
    (hsingle : ∀ row ∈ table.vault.rows, ∀ other ∈ table.vault.rows,
      row.kind = .telegram → other.kind = .telegram → row = other)
    (hnextId : state.table.vault.nextId ≤ table.vault.nextId)
    (hversion : state.table.version ≤ table.version)
    (hkeyFile : table.vault.keyFile = state.table.vault.keyFile)
    (hrows : ∀ row ∈ table.vault.rows,
      row ∈ state.table.vault.rows ∧ table.entry row = state.table.entry row ∨
        some row = saved ∧ ∀ entry ∈ state.committed, entry.pair ≠ (table.entry row).pair) :
    Recorded platform (state.commit table) ∧ Advances state (state.commit table) := by
  have hentries : ∀ entry ∈ (state.commit table).committed, entry ∈ state.committed ∨
      ∃ row ∈ table.vault.rows, entry = table.entry row ∧ some row = saved ∧
        ∀ old ∈ state.committed, old.pair ≠ entry.pair := by
    intro entry hentry
    rcases mem_committed.mp hentry with hold | ⟨row, hrow, rfl⟩
    · exact .inl hold
    · rcases hrows row hrow with ⟨hmem, hsame⟩ | ⟨hsaved, hnew⟩
      · exact .inl (hsame ▸ h.present row hmem)
      · exact .inr ⟨row, hrow, rfl, hsaved, hnew⟩
  constructor
  · refine ⟨hkept, hsingle, fun row hrow => mem_committed.mpr (.inr ⟨row, hrow, rfl⟩), ?_, ?_⟩
    · intro entry hentry other hother hpair
      rcases hentries entry hentry with hold | ⟨row, hrow, rfl, hsaved, hnew⟩
      · rcases hentries other hother with hold' | ⟨row, hrow, rfl, -, hnew⟩
        · exact h.determined entry hold other hold' hpair
        · exact absurd hpair (hnew entry hold)
      · rcases hentries other hother with hold' | ⟨row', -, rfl, hsaved', -⟩
        · exact absurd hpair.symm (hnew other hold')
        · rw [Option.some.inj (hsaved.trans hsaved'.symm)]
    · intro entry hentry
      rcases mem_committed.mp hentry with hold | ⟨row, hrow, rfl⟩
      · exact (h.below entry hold).trans_le hnextId
      · exact hkept.below row hrow
  · refine ⟨fun entry hentry => mem_committed.mpr (.inl hentry), ?_, hversion, hkeyFile, id⟩
    rintro pair ⟨⟨entry, hentry, rfl⟩, habsent⟩
    refine ⟨⟨entry, mem_committed.mpr (.inl hentry), rfl⟩, fun row hrow hpair => ?_⟩
    rcases hrows row hrow with ⟨hmem, hsame⟩ | ⟨-, hnew⟩
    · exact habsent row hmem (hsame ▸ hpair)
    · exact hnew entry hentry hpair.symm

/-- No worker is stopped in the middle of a refresh, and no two transactions that save one row begin
in the same microsecond. -/
def State.orderly (state : State Key) : Action → Bool
  | .save _ _ entryId _ _ _ startedAt => state.committed.all fun entry =>
      some entry.row.id ≠ entryId || entry.updatedAt ≠ startedAt
  | .stop id => state.workers[id]?.all Worker.isAsleep
  | _ => true

theorem Recorded.save (h : Recorded platform state) {data : IntegrationInput} {adminIds : List Int}
    {entryId : Option Nat} {salt webhookSalt startedAt : Nat} {drawn : Text} {table : Table Key}
    (horderly :
      state.orderly (.save data adminIds entryId salt webhookSalt drawn startedAt) = true)
    (hsave : state.table.save platform data adminIds entryId salt webhookSalt drawn startedAt =
      .ok table) :
    Recorded platform (state.commit table) ∧ Advances state (state.commit table) := by
  have hfresh : ∀ entry ∈ state.committed,
      some entry.row.id ≠ entryId ∨ entry.updatedAt ≠ startedAt := by
    simpa only [State.orderly, List.all_eq_true, Bool.or_eq_true, decide_eq_true_eq] using horderly
  simp only [Table.save, Except.bind_eq_ok] at hsave
  obtain ⟨vault, hvault, options, -, htable⟩ := hsave
  split at htable
  · cases htable
    exact h.commit none h.kept h.single le_rfl le_rfl rfl
      fun row hrow => .inl ⟨hrow, rfl⟩
  · cases htable
    obtain ⟨saved, hsaves⟩ := save_saves h.kept hvault
    have hother : ∀ row : Integration, row ∈ state.table.vault.rows → some row.id ≠ entryId →
        row.id ≠ entryId.getD state.table.vault.nextId := by
      intro row hrow hne hsame
      cases entryId with
      | none => exact absurd hsame (h.kept.below row hrow).ne
      | some id => exact hne (congrArg some hsame)
    refine h.commit (some saved) (h.kept.save hvault) ?_ hsaves.nextId (Nat.le_succ _)
      hsaves.keyFile fun row hrow => ?_
    · intro row hrow other hother' hkind hkind'
      rcases hsaves.rows row hrow with rfl | ⟨hold, hne⟩
      · rcases hsaves.rows other hother' with rfl | ⟨hold', hne'⟩
        · rfl
        · exact absurd hkind' (hsaves.single hkind other hold' hne')
      · rcases hsaves.rows other hother' with rfl | ⟨hold', -⟩
        · exact absurd hkind (hsaves.single hkind' row hold hne)
        · exact h.single row hold other hold' hkind hkind'
    · rcases hsaves.rows row hrow with rfl | ⟨hold, hne⟩
      · refine .inr ⟨rfl, fun entry hentry hpair => ?_⟩
        have hid : entry.row.id = entryId.getD state.table.vault.nextId :=
          (congrArg Prod.fst hpair).trans hsaves.id
        have htime : entry.updatedAt = startedAt := by
          have hupdated := congrArg Prod.snd hpair
          simpa [Entry.pair, Table.entry, hsaves.id] using hupdated
        cases hentryId : entryId with
        | none =>
            rw [hentryId] at hid
            exact absurd hid (h.below entry hentry).ne
        | some given =>
            rw [hentryId] at hid
            refine (hfresh entry hentry).elim (fun hne => hne ?_) fun hne => hne htime
            rw [hentryId, hid]
            rfl
      · refine .inl ⟨hold, ?_⟩
        have hid := hother row hold hne
        simp [Table.entry, Function.update_of_ne hid]

theorem Recorded.delete (h : Recorded platform state) {table : Table Key}
    (hdelete : state.table.delete id = some table) :
    Recorded platform (state.commit table) ∧ Advances state (state.commit table) := by
  unfold Table.delete at hdelete
  split at hdelete
  · cases hdelete
    refine h.commit none (kept_delete h.kept id) ?_ le_rfl (Nat.le_succ _) rfl ?_
    · intro row hrow other hother hkind hkind'
      exact h.single row (List.mem_of_mem_filter hrow) other (List.mem_of_mem_filter hother) hkind
        hkind'
    · exact fun row hrow => .inl ⟨List.mem_of_mem_filter hrow, rfl⟩
  · cases hdelete

theorem mem_list {table : Table Key} :
    entry ∈ table.list collate ↔ ∃ row ∈ table.vault.rows, table.entry row = entry := by
  simp [Table.list, List.mem_insertionSort]

theorem rows_list (collate : Text → Text → Bool) (table : Table Key) :
    ((table.list collate).map Entry.row).Perm table.vault.rows := by
  have hrows : (table.list collate).map Entry.row =
      table.vault.rows.insertionSort fun row other => collate row.name other.name = true := by
    rw [Table.list, List.map_map]
    exact List.map_id _
  rw [hrows]
  exact List.perm_insertionSort _ _

theorem mem_telegramEntry {entries : List Entry} (h : telegramEntry entries = some entry) :
    entry ∈ entries ∧ entry.isTelegram = true :=
  ⟨List.mem_of_find?_eq_some h, List.find?_some h⟩

/-- The row of the bot is the one that is listed. -/
theorem Recorded.telegramEntry_list (h : Recorded platform state) {row : Integration}
    (hrow : row ∈ state.table.vault.rows) (hkind : row.kind = .telegram) :
    telegramEntry (state.table.list collate) = some (state.table.entry row) := by
  have hlisted : state.table.entry row ∈ state.table.list collate := mem_list.mpr ⟨row, hrow, rfl⟩
  have hsome : (telegramEntry (state.table.list collate)).isSome = true :=
    List.find?_isSome.mpr ⟨_, hlisted, by simp [hkind]⟩
  obtain ⟨found, hfound⟩ := Option.isSome_iff_exists.mp hsome
  obtain ⟨hmem, htelegram⟩ := mem_telegramEntry hfound
  obtain ⟨other, hother, rfl⟩ := mem_list.mp hmem
  rw [isTelegram_entry, decide_eq_true_eq] at htelegram
  rw [hfound, h.single other hother row hrow htelegram hkind]

/-! ### The bots -/

/-- The revision of a worker names no row that may come up again with a bot to run. -/
def Lapsed (state : State Key) (worker : Worker) : Prop :=
  ∀ pair, worker.revision = some (.row pair) → Gone state pair ∨
    ∃ entry ∈ state.committed, entry.pair = pair ∧ entry.row.enabled = false

/-- The settings are those of the row. -/
def Configured (platform : Platform Key) (state : State Key) (settings : Settings)
    (entry : Entry) : Prop :=
  ∃ token secret, state.unsealed platform entry.row.secret = .ok token ∧
    state.unsealed platform entry.options.webhookSecret = .ok secret ∧
    settings = ⟨token, secret, entry.options.webhookUrl, entry.options.adminIds⟩

/-- The row of a bot that is to run. -/
structure Bot.Row (state : State Key) (entry : Entry) : Prop where
  mem : entry ∈ state.committed
  telegram : entry.isTelegram = true
  enabled : entry.row.enabled = true

/-- A worker with its bot connected. -/
structure Serves (platform : Platform Key) (state : State Key) (worker : Worker)
    (entry : Entry) : Prop where
  row : Bot.Row state entry
  revision : worker.revision = some (.row entry.pair)
  configured : Configured platform state worker.settings entry
  bot : worker.bot = some ⟨worker.settings.botToken, worker.mode⟩
  synced : state.lastSync.isSome = true

/-- A worker between two refreshes. -/
def Rests (platform : Platform Key) (state : State Key) (worker : Worker) : Prop :=
  (∃ entry, Serves platform state worker entry) ∨ worker.bot = none ∧ Lapsed state worker

/-- What has been listed under the lock. -/
structure Listed (platform : Platform Key) (state : State Key) (snapshot : Snapshot) : Prop where
  committed : ∀ entry ∈ snapshot.entries, entry ∈ state.committed
  version : snapshot.version ≤ state.table.version
  formed : ∀ row ∈ snapshot.rows, WellFormed row
  sealed : ∀ row ∈ snapshot.rows, Sealed platform row
  ids : (snapshot.rows.map Integration.id).Nodup
  names : (snapshot.rows.map Integration.name).Nodup

/-- A worker on its way to the bot of this row. -/
structure Starts (state : State Key) (worker : Worker) (entry : Entry) : Prop where
  row : Bot.Row state entry
  bot : worker.bot = none
  lapsed : Lapsed state worker

def Worker.Sound (platform : Platform Key) (state : State Key) (worker : Worker) : Prop :=
  match worker.phase with
  | .asleep => Rests platform state worker
  | .listed snapshot => Rests platform state worker ∧ Listed platform state snapshot ∧
      (worker.revision = some (.of (telegramEntry snapshot.entries)) ∨ Lapsed state worker)
  | .leaving entry => Lapsed state worker ∧ ∀ row ∈ entry, row ∈ state.committed ∧
      row.isTelegram = true
  | .reset entry => Starts state worker entry
  | .configured entry => Starts state worker entry ∧
      Configured platform state worker.settings entry
  | .synced entry => Starts state worker entry ∧
      Configured platform state worker.settings entry ∧ state.lastSync.isSome = true
  | .stopped => True

theorem Lapsed.advances (h : Lapsed state worker) (hadvances : Advances state next) :
    Lapsed next worker := fun pair hpair =>
  (h pair hpair).imp (hadvances.gone pair) fun ⟨entry, hentry, hrest⟩ =>
    ⟨entry, hadvances.committed entry hentry, hrest⟩

theorem Configured.advances {settings : Settings} (h : Configured platform state settings entry)
    (hadvances : Advances state next) : Configured platform next settings entry := by
  unfold Configured State.unsealed at h ⊢
  rw [hadvances.keyFile]
  exact h

theorem Bot.Row.advances (h : Bot.Row state entry) (hadvances : Advances state next) :
    Bot.Row next entry :=
  ⟨hadvances.committed entry h.mem, h.telegram, h.enabled⟩

theorem Rests.advances (h : Rests platform state worker) (hadvances : Advances state next) :
    Rests platform next worker := by
  rcases h with ⟨entry, hserves⟩ | ⟨hbot, hlapsed⟩
  · exact .inl ⟨entry, hserves.row.advances hadvances, hserves.revision,
      hserves.configured.advances hadvances, hserves.bot, hadvances.synced hserves.synced⟩
  · exact .inr ⟨hbot, hlapsed.advances hadvances⟩

theorem Listed.advances {snapshot : Snapshot} (h : Listed platform state snapshot)
    (hadvances : Advances state next) : Listed platform next snapshot :=
  ⟨fun entry hentry => hadvances.committed entry (h.committed entry hentry),
    h.version.trans hadvances.version, h.formed, h.sealed, h.ids, h.names⟩

theorem Starts.advances (h : Starts state worker entry) (hadvances : Advances state next) :
    Starts next worker entry :=
  ⟨h.row.advances hadvances, h.bot, h.lapsed.advances hadvances⟩

theorem Worker.Sound.advances (h : worker.Sound platform state) (hadvances : Advances state next) :
    worker.Sound platform next := by
  unfold Worker.Sound at h ⊢
  cases hphase : worker.phase with
  | asleep =>
      rw [hphase] at h
      exact Rests.advances h hadvances
  | listed snapshot =>
      rw [hphase] at h
      obtain ⟨hrests, hlisted, hnext⟩ := h
      exact ⟨hrests.advances hadvances, hlisted.advances hadvances,
        hnext.imp (fun hsame => hsame) fun hlapsed => hlapsed.advances hadvances⟩
  | leaving entry =>
      rw [hphase] at h
      exact ⟨h.1.advances hadvances, fun row hrow =>
        ⟨hadvances.committed row (h.2 row hrow).1, (h.2 row hrow).2⟩⟩
  | reset entry =>
      rw [hphase] at h
      exact Starts.advances h hadvances
  | configured entry =>
      rw [hphase] at h
      exact ⟨h.1.advances hadvances, h.2.advances hadvances⟩
  | synced entry =>
      rw [hphase] at h
      exact ⟨h.1.advances hadvances, h.2.1.advances hadvances, hadvances.synced h.2.2⟩
  | stopped => trivial

/-- A worker that rests and has another revision than the row of the bot has an old one. -/
theorem Rests.lapsed (h : Rests platform state worker) (hrecorded : Recorded platform state)
    (hne : worker.revision ≠ some (.of (telegramEntry (state.table.list collate)))) :
    Lapsed state worker := by
  rcases h with ⟨entry, hserves⟩ | ⟨-, hlapsed⟩
  · intro pair hpair
    rw [hserves.revision] at hpair
    cases hpair
    refine .inl ⟨⟨entry, hserves.row.mem, rfl⟩, fun row hrow hpair => hne ?_⟩
    have hsame := hrecorded.determined _ (hrecorded.present row hrow) entry hserves.row.mem hpair
    have htelegram := hserves.row.telegram
    rw [← hsame, isTelegram_entry, decide_eq_true_eq] at htelegram
    rw [hrecorded.telegramEntry_list hrow htelegram, hserves.revision, ← hsame]
    rfl
  · exact hlapsed

/-! ### The steps of a refresh -/

theorem Lapsed.of_revision (h : Lapsed state worker) (hsame : after.revision = worker.revision) :
    Lapsed state after := fun pair hpair => h pair (hsame ▸ hpair)

theorem Rests.of_same (h : Rests platform state worker) (hrevision : after.revision = worker.revision)
    (hsettings : after.settings = worker.settings) (hbot : after.bot = worker.bot) :
    Rests platform state after := by
  rcases h with ⟨entry, hserves⟩ | ⟨hnone, hlapsed⟩
  · refine .inl ⟨entry, hserves.row, hrevision.trans hserves.revision, ?_, ?_, hserves.synced⟩
    · rw [hsettings]
      exact hserves.configured
    · rw [hbot, hserves.bot, Worker.mode, Worker.mode, hsettings]
  · exact .inr ⟨hbot.trans hnone, hlapsed.of_revision hrevision⟩

theorem Rests.rest (h : Rests platform state worker) : worker.rest.Sound platform state :=
  h.of_same rfl rfl rfl

theorem Rests.fail (h : Rests platform state worker) : worker.fail.Sound platform state := by
  have hrests : Rests platform state worker.fail := h.of_same rfl rfl rfl
  unfold Worker.Sound
  cases hwatching : worker.watching with
  | false => simp [Worker.fail, hwatching]
  | true => simpa [Worker.fail, hwatching] using hrests

theorem Starts.rests (h : Starts state worker entry) : Rests platform state worker :=
  .inr ⟨h.bot, h.lapsed⟩

theorem sound_compareRevision {entry : Option Entry} (h : Rests platform state worker)
    (hnext : worker.revision = some (.of entry) ∨ Lapsed state worker)
    (hrow : ∀ row ∈ entry, row ∈ state.committed ∧ row.isTelegram = true) :
    (worker.compareRevision entry).Sound platform state := by
  unfold Worker.compareRevision
  split
  · exact h.rest
  · rename_i hne
    exact ⟨hnext.resolve_left fun hsame => hne hsame.symm, hrow⟩

/-- What is listed is what has been committed. -/
theorem Recorded.listed (h : Recorded platform state) :
    Listed platform state (state.snapshot collate) := by
  have hperm := rows_list collate state.table
  refine ⟨fun entry hentry => ?_, le_rfl, fun row hrow => ?_, fun row hrow => ?_, ?_, ?_⟩
  · obtain ⟨row, hrow, rfl⟩ := mem_list.mp hentry
    exact h.present row hrow
  · exact h.kept.formed row (hperm.mem_iff.mp hrow)
  · exact h.kept.sealed row (hperm.mem_iff.mp hrow)
  · exact (hperm.map _).nodup_iff.mpr h.kept.ids
  · exact (hperm.map _).nodup_iff.mpr h.kept.names

theorem Listed.telegram {snapshot : Snapshot} (h : Listed platform state snapshot) :
    ∀ row ∈ telegramEntry snapshot.entries, row ∈ state.committed ∧ row.isTelegram = true :=
  fun row hrow => ⟨h.committed row (mem_telegramEntry hrow).1, (mem_telegramEntry hrow).2⟩

theorem sound_list (collate : Text → Text → Bool) (h : Rests platform state worker)
    (hrecorded : Recorded platform state) :
    (worker.list (state.snapshot collate)).Sound platform state := by
  have hlisted : Listed platform state (state.snapshot collate) := hrecorded.listed
  have hnext : worker.revision = some (.of (telegramEntry (state.snapshot collate).entries)) ∨
      Lapsed state worker := by
    by_cases hsame : worker.revision = some (.of (telegramEntry (state.table.list collate)))
    · exact .inl hsame
    · exact .inr (h.lapsed hrecorded hsame)
  unfold Worker.list
  split
  · exact sound_compareRevision h hnext hlisted.telegram
  · exact ⟨h.of_same rfl rfl rfl, hlisted, hnext⟩

theorem sound_written {snapshot : Snapshot} (h : worker.Sound platform state)
    (hphase : worker.phase = .listed snapshot) :
    (worker.written snapshot).Sound platform state := by
  unfold Worker.Sound at h
  rw [hphase] at h
  obtain ⟨hrests, hlisted, hnext⟩ := h
  exact sound_compareRevision (hrests.of_same rfl rfl rfl)
    (hnext.imp (fun hsame => hsame) fun hlapsed => hlapsed.of_revision rfl) hlisted.telegram

theorem lapsed_of_disabled {entry : Option Entry}
    (hrow : ∀ row ∈ entry, row ∈ state.committed ∧ row.isTelegram = true)
    (hdisabled : entry.filter (fun entry => entry.row.enabled) = none)
    (hrevision : worker.revision = some (.of entry)) : Lapsed state worker := by
  intro pair hpair
  rw [hrevision] at hpair
  cases entry with
  | none => cases hpair
  | some entry =>
      cases hpair
      refine .inr ⟨entry, (hrow entry rfl).1, rfl, ?_⟩
      simpa [Option.filter_eq_none_iff] using hdisabled

theorem sound_stopConnection {entry : Option Entry} (h : worker.Sound platform state)
    (hphase : worker.phase = .leaving entry) :
    (worker.stopConnection entry).Sound platform state ∧
      ((worker.stopConnection entry).revision = worker.revision ∨
        Lapsed state (worker.stopConnection entry)) := by
  unfold Worker.Sound at h
  rw [hphase] at h
  obtain ⟨hlapsed, hrow⟩ := h
  unfold Worker.stopConnection
  cases hfilter : entry.filter (fun entry => entry.row.enabled) with
  | none =>
      have hoff : Lapsed state ({ worker with
          bot := none, settings := .empty, revision := some (Revision.of entry) } : Worker).rest :=
        lapsed_of_disabled hrow hfilter rfl
      exact ⟨.inr ⟨rfl, hoff⟩, .inr hoff⟩
  | some found =>
      obtain ⟨hfound, henabled⟩ := Option.filter_eq_some_iff.mp hfilter
      obtain ⟨hmem, htelegram⟩ := hrow found hfound
      exact ⟨⟨⟨hmem, htelegram, henabled⟩, rfl, hlapsed⟩, .inl rfl⟩

theorem sound_configure (h : Starts state worker entry) :
    (worker.configure (state.unsealed platform) entry).Sound platform state := by
  unfold Worker.configure
  cases htoken : state.unsealed platform entry.row.secret with
  | error error => exact h.rests.fail
  | ok token =>
      cases hsecret : state.unsealed platform entry.options.webhookSecret with
      | error error =>
          have hrests : Rests platform state { worker with
              settings := { worker.settings with botToken := token } } := .inr ⟨h.bot, h.lapsed⟩
          exact hrests.fail
      | ok secret => exact ⟨⟨h.row, h.bot, h.lapsed⟩, token, secret, htoken, hsecret, rfl⟩

theorem sound_connect (h : worker.Sound platform state) (hphase : worker.phase = .synced entry)
    (accepted : Bool) :
    (worker.connect entry accepted).Sound platform state ∧
      ((worker.connect entry accepted).revision = worker.revision ∨
        (worker.connect entry accepted).revision = some (.row entry.pair)) := by
  unfold Worker.Sound at h
  rw [hphase] at h
  obtain ⟨hstarts, hconfigured, hsynced⟩ := h
  unfold Worker.connect
  split
  · exact ⟨hstarts.rests.rest, .inl rfl⟩
  · cases accepted with
    | false => exact ⟨hstarts.rests.rest, .inl rfl⟩
    | true => exact ⟨.inl ⟨entry, hstarts.row, rfl, hconfigured, rfl, hsynced⟩, .inr rfl⟩

/-! ### The state of the server -/

/-- What the vault holds is what the worker that has written it last takes it to hold. -/
structure Wrote (state : State Key) (write : Write) : Prop where
  version : write.version ≤ state.table.version
  complete : write.complete = true → ∃ worker entries, state.workers[write.worker]? = some worker ∧
    worker.runtimeRevision = some (runtimeRevision entries) ∧
    (∀ entry ∈ entries, entry ∈ state.committed) ∧
    Exact ((entries.map Entry.row).filter isActive) state.directory

/-- The worker that has synced last has the revision of its row, or will sync again. -/
def Agrees (state : State Key) (worker : Worker) (entry : Entry) : Prop :=
  (∀ other, worker.phase = .synced other → other = entry) ∧
    (worker.revision = some (.row entry.pair) ∨ Lapsed state worker)

structure Synced (state : State Key) (id : Nat) (entry : Entry) : Prop where
  row : Bot.Row state entry
  roles : (syncAdminRoles entry.options.adminIds state.users).2 = state.users
  agrees : ∃ worker, state.workers[id]? = some worker ∧ Agrees state worker entry

structure Sound (platform : Platform Key) (state : State Key) : Prop where
  recorded : Recorded platform state
  alone : ∀ (id other : Nat) (worker found : Worker), state.workers[id]? = some worker →
    state.workers[other]? = some found → worker.isListed = true → found.isListed = true → id = other
  threads : state.threads = []
  workers : ∀ (id : Nat) (worker : Worker), state.workers[id]? = some worker →
    worker.Sound platform state
  wrote : ∀ write, state.lastWrite = some write → Wrote state write
  order : ∀ (id : Nat) (worker : Worker) (snapshot : Snapshot) (write : Write),
    state.workers[id]? = some worker → worker.phase = .listed snapshot → state.lastWrite = some write →
    write.version ≤ snapshot.version
  synced : ∀ id entry, state.lastSync = some (id, entry) → Synced state id entry

theorem Worker.isListed_iff : worker.isListed = true ↔ ∃ snapshot, worker.phase = .listed snapshot := by
  unfold Worker.isListed
  cases worker.phase <;> simp

theorem Worker.isAsleep_iff : worker.isAsleep = true ↔ worker.phase = .asleep := by
  unfold Worker.isAsleep
  cases worker.phase <;> simp

theorem Worker.Sound.asleep (h : worker.Sound platform state) (hasleep : worker.phase = .asleep) :
    Rests platform state worker := by
  unfold Worker.Sound at h
  rw [hasleep] at h
  exact h

theorem getElem?_moved (other : Nat) (found : Worker) (hworker : state.workers[id]? = some worker)
    (hworkers : next.workers = state.workers.set id after) :
    next.workers[other]? = some found ↔
      (other = id ∧ found = after) ∨ (other ≠ id ∧ state.workers[other]? = some found) := by
  have hlength : id < state.workers.length := (List.getElem?_eq_some_iff.mp hworker).1
  rw [hworkers]
  by_cases hsame : other = id
  · subst hsame
    simp [hlength, eq_comm]
  · simp [List.getElem?_set_ne (Ne.symm hsame), hsame]

/-- The table changes, and no worker moves. -/
theorem Sound.commit (h : Sound platform state) {table : Table Key}
    (hcommit : Recorded platform (state.commit table) ∧ Advances state (state.commit table)) :
    Sound platform (state.commit table) := by
  obtain ⟨hrecorded, hadvances⟩ := hcommit
  refine ⟨hrecorded, h.alone, h.threads, ?_, ?_, h.order, ?_⟩
  · exact fun id worker hworker => (h.workers id worker hworker).advances hadvances
  · intro write hwrite
    obtain ⟨hversion, hcomplete⟩ := h.wrote write hwrite
    refine ⟨hversion.trans hadvances.version, fun hdone => ?_⟩
    obtain ⟨worker, entries, hworker, hruntime, hmem, hexact⟩ := hcomplete hdone
    exact ⟨worker, entries, hworker, hruntime,
      fun entry hentry => hadvances.committed entry (hmem entry hentry), hexact⟩
  · intro id entry hsync
    obtain ⟨hrow, hroles, worker, hworker, hphase, hfollows⟩ := h.synced id entry hsync
    exact ⟨hrow.advances hadvances, hroles, worker, hworker, hphase,
      hfollows.imp (fun hsame => hsame) fun hlapsed => hlapsed.advances hadvances⟩

/-- A worker moves, with what it does to the rest of the server, but for the table. -/
theorem Sound.move (h : Sound platform state) (hworker : state.workers[id]? = some worker)
    (hworkers : next.workers = state.workers.set id after) (hadvances : Advances state next)
    (hrecorded : Recorded platform next) (hthreads : next.threads = state.threads)
    (hsound : after.Sound platform next)
    (hlisted : after.isListed = true → ∀ other found, state.workers[other]? = some found →
      other ≠ id → found.isListed = false)
    (hwrote : ∀ write, next.lastWrite = some write → Wrote next write)
    (horder : ∀ (other : Nat) (found : Worker) (snapshot : Snapshot) (write : Write),
      next.workers[other]? = some found →
      found.phase = .listed snapshot → next.lastWrite = some write →
      write.version ≤ snapshot.version)
    (hsynced : ∀ other entry, next.lastSync = some (other, entry) → Synced next other entry) :
    Sound platform next := by
  have hget {other : Nat} {found : Worker} := getElem?_moved other found hworker hworkers
  refine ⟨hrecorded, ?_, hthreads.trans h.threads, ?_, hwrote, horder, hsynced⟩
  · intro first second found found' hfirst hsecond hlisted' hlisted''
    rcases hget.mp hfirst with ⟨rfl, rfl⟩ | ⟨hne, hold⟩
    · rcases hget.mp hsecond with ⟨rfl, rfl⟩ | ⟨hne, hold⟩
      · rfl
      · rw [hlisted hlisted' second found' hold hne] at hlisted''
        cases hlisted''
    · rcases hget.mp hsecond with ⟨rfl, rfl⟩ | ⟨hne', hold'⟩
      · rw [hlisted hlisted'' first found hold hne] at hlisted'
        cases hlisted'
      · exact h.alone first second found found' hold hold' hlisted' hlisted''
  · intro other found hfound
    rcases hget.mp hfound with ⟨rfl, rfl⟩ | ⟨-, hold⟩
    · exact hsound
    · exact (h.workers other found hold).advances hadvances

/-- The last writer still is, when one of the workers moves and keeps what it has written. -/
theorem Wrote.move {write : Write} (h : Wrote state write)
    (hworker : state.workers[id]? = some worker)
    (hworkers : next.workers = state.workers.set id after)
    (htable : next.table = state.table) (hcommitted : next.committed = state.committed)
    (hdirectory : next.directory = state.directory)
    (hruntime : after.runtimeRevision = worker.runtimeRevision) : Wrote next write := by
  refine ⟨by rw [htable]; exact h.version, fun hdone => ?_⟩
  obtain ⟨writer, entries, hwriter, hrevision, hmem, hexact⟩ := h.complete hdone
  rw [← hcommitted] at hmem
  rw [← hdirectory] at hexact
  have hget {found : Worker} := getElem?_moved write.worker found hworker hworkers
  by_cases hsame : write.worker = id
  · rw [hsame, hworker] at hwriter
    cases hwriter
    exact ⟨after, entries, hget.mpr (.inl ⟨hsame, rfl⟩), hruntime.trans hrevision, hmem, hexact⟩
  · exact ⟨writer, entries, hget.mpr (.inr ⟨hsame, hwriter⟩), hrevision, hmem, hexact⟩

/-- So is the worker that has synced last. -/
theorem Synced.move {other : Nat} (h : Synced state other entry)
    (hworker : state.workers[id]? = some worker)
    (hworkers : next.workers = state.workers.set id after) (hadvances : Advances state next)
    (husers : next.users = state.users) (hagrees : other = id → Agrees next after entry) :
    Synced next other entry := by
  refine ⟨h.row.advances hadvances, by rw [husers]; exact h.roles, ?_⟩
  have hget {found : Worker} := getElem?_moved other found hworker hworkers
  by_cases hsame : other = id
  · exact ⟨after, hget.mpr (.inl ⟨hsame, rfl⟩), hagrees hsame⟩
  · obtain ⟨syncer, hsyncer, hphase, hfollows⟩ := h.agrees
    exact ⟨syncer, hget.mpr (.inr ⟨hsame, hsyncer⟩), hphase,
      hfollows.imp (fun hrevision => hrevision) fun hlapsed => hlapsed.advances hadvances⟩

/-- A worker moves on its own. -/
theorem Sound.setWorker (h : Sound platform state) (hworker : state.workers[id]? = some worker)
    (hsound : after.Sound platform state)
    (hlisted : ∀ snapshot, after.phase = .listed snapshot →
      (∀ other found, state.workers[other]? = some found → other ≠ id → found.isListed = false) ∧
        ∀ write, state.lastWrite = some write → write.version ≤ snapshot.version)
    (hruntime : after.runtimeRevision = worker.runtimeRevision)
    (hagrees : ∀ entry, state.lastSync = some (id, entry) → Agrees state after entry) :
    Sound platform (state.setWorker id after) := by
  have hadvances : Advances state (state.setWorker id after) := .of_table rfl rfl fun hsome => hsome
  refine h.move hworker rfl hadvances (h.recorded.of_table rfl rfl) rfl
    (hsound.advances hadvances) ?_ ?_ ?_ ?_
  · intro hlocks other found hfound hne
    obtain ⟨snapshot, hphase⟩ := Worker.isListed_iff.mp hlocks
    exact (hlisted snapshot hphase).1 other found hfound hne
  · exact fun write hwrite => (h.wrote write hwrite).move hworker rfl rfl rfl rfl hruntime
  · intro other found snapshot write hfound hphase hwrite
    rcases (getElem?_moved _ _ hworker rfl).mp hfound with ⟨rfl, rfl⟩ | ⟨-, hold⟩
    · exact (hlisted snapshot hphase).2 write hwrite
    · exact h.order other found snapshot write hold hphase hwrite
  · intro other entry hsync
    refine (h.synced other entry hsync).move hworker rfl hadvances rfl fun hsame => ?_
    obtain ⟨hphase, hfollows⟩ := hagrees entry (hsame ▸ hsync)
    exact ⟨hphase, hfollows⟩

/-- A worker that keeps its revisions and is on its way to nothing. -/
theorem Agrees.of_same (h : Agrees state worker entry) (hrevision : after.revision = worker.revision)
    (hphase : ∀ other, after.phase ≠ .synced other) : Agrees state after entry :=
  ⟨fun other hsynced => absurd hsynced (hphase other),
    h.2.imp (fun hsame => hrevision.trans hsame) fun hlapsed => hlapsed.of_revision hrevision⟩

theorem Sound.agrees (h : Sound platform state) (hworker : state.workers[id]? = some worker)
    (hsync : state.lastSync = some (id, entry)) : Agrees state worker entry := by
  obtain ⟨syncer, hsyncer, hagrees⟩ := (h.synced id entry hsync).agrees
  obtain rfl := Option.some.inj (hworker.symm.trans hsyncer)
  exact hagrees

/-- What a worker may do on its own without the lock. -/
structure Quiet (worker after : Worker) : Prop where
  listed : ∀ snapshot, after.phase ≠ .listed snapshot
  synced : ∀ entry, after.phase ≠ .synced entry
  runtime : after.runtimeRevision = worker.runtimeRevision

theorem quiet_rest (worker : Worker) : Quiet worker worker.rest :=
  ⟨(fun _ h => by cases h), (fun _ h => by cases h), rfl⟩

theorem quiet_fail (worker : Worker) : Quiet worker worker.fail := by
  refine ⟨fun snapshot h => ?_, fun entry h => ?_, rfl⟩ <;>
  · simp only [Worker.fail] at h
    split at h <;> cases h

theorem quiet_compareRevision (worker : Worker) (entry : Option Entry) :
    Quiet worker (worker.compareRevision entry) ∧
      (worker.compareRevision entry).revision = worker.revision := by
  unfold Worker.compareRevision
  split
  · exact ⟨quiet_rest worker, rfl⟩
  · exact ⟨⟨(fun _ h => by cases h), (fun _ h => by cases h), rfl⟩, rfl⟩

theorem quiet_stopConnection (worker : Worker) (entry : Option Entry) :
    Quiet worker (worker.stopConnection entry) := by
  unfold Worker.stopConnection
  split <;> exact ⟨(fun _ h => by cases h), (fun _ h => by cases h), rfl⟩

theorem quiet_configure (worker : Worker) (unsealed : Text → Except String Text) (entry : Entry) :
    Quiet worker (worker.configure unsealed entry) ∧
      (worker.configure unsealed entry).revision = worker.revision := by
  unfold Worker.configure
  split
  · exact ⟨quiet_fail worker, rfl⟩
  · split
    · obtain ⟨hlisted, hsynced, hruntime⟩ := quiet_fail { worker with
        settings := { worker.settings with botToken := _ } }
      exact ⟨⟨hlisted, hsynced, hruntime⟩, rfl⟩
    · exact ⟨⟨(fun _ h => by cases h), (fun _ h => by cases h), rfl⟩, rfl⟩

theorem quiet_connect (worker : Worker) (entry : Entry) (accepted : Bool) :
    Quiet worker (worker.connect entry accepted) := by
  unfold Worker.connect
  split
  · exact quiet_rest worker
  · split
    · exact ⟨(fun _ h => by cases h), (fun _ h => by cases h), rfl⟩
    · exact quiet_rest worker

theorem Sound.quiet (h : Sound platform state) (hworker : state.workers[id]? = some worker)
    (hsound : after.Sound platform state) (hquiet : Quiet worker after)
    (hagrees : ∀ entry, Agrees state worker entry →
      after.revision = some (.row entry.pair) ∨ Lapsed state after) :
    Sound platform (state.setWorker id after) := by
  refine h.setWorker hworker hsound (fun snapshot hphase => absurd hphase (hquiet.listed snapshot))
    hquiet.runtime fun entry hsync => ⟨fun other hphase => absurd hphase (hquiet.synced other), ?_⟩
  exact hagrees entry (h.agrees hworker hsync)

theorem Sound.quiet_same (h : Sound platform state) (hworker : state.workers[id]? = some worker)
    (hsound : after.Sound platform state) (hquiet : Quiet worker after)
    (hrevision : after.revision = worker.revision) : Sound platform (state.setWorker id after) :=
  h.quiet hworker hsound hquiet fun _ hagrees => (hagrees.of_same hrevision hquiet.synced).2

theorem Sound.list (h : Sound platform state) (hworker : state.workers[id]? = some worker)
    (hasleep : worker.phase = .asleep) (hfree : state.locked = false) :
    Sound platform (state.setWorker id (worker.list (state.snapshot collate))) := by
  have hrests := (h.workers id worker hworker).asleep hasleep
  have hsound := sound_list collate hrests h.recorded
  have hothers : ∀ (other : Nat) found, state.workers[other]? = some found → found.isListed = false := by
    intro other found hfound
    exact Bool.eq_false_iff.mpr fun hlisted =>
      absurd (List.any_eq_true.mpr ⟨found, List.mem_of_getElem? hfound, hlisted⟩)
        (Bool.eq_false_iff.mp hfree)
  obtain ⟨hquiet, hrevision⟩ := quiet_compareRevision worker
    (telegramEntry (state.snapshot collate).entries)
  unfold Worker.list at hsound ⊢
  split
  · rename_i hsame
    rw [if_pos hsame] at hsound
    exact h.quiet_same hworker hsound hquiet hrevision
  · rename_i hne
    rw [if_neg hne] at hsound
    refine h.setWorker hworker hsound ?_ rfl fun entry hsync =>
      (h.agrees hworker hsync).of_same rfl fun other hphase => by cases hphase
    intro snapshot hphase
    cases hphase
    exact ⟨fun other found hfound _ => hothers other found hfound,
      fun write hwrite => (h.wrote write hwrite).version⟩

/-- The files that are written from a snapshot are those of its rows. -/
theorem Listed.exact {snapshot : Snapshot} (h : Listed platform state snapshot)
    (hok : (state.materialize platform id snapshot).1.isOk = true) :
    Exact (snapshot.rows.filter isActive) (state.materialize platform id snapshot).2.directory := by
  have hunsealed : ∀ row ∈ snapshot.rows.filter isActive,
      state.unsealed platform row.secret = .ok row.given := by
    intro row hrow
    refine Vault.unsealSecret_eq (h.sealed row (List.mem_of_mem_filter hrow)) ?_
    by_contra hfails
    have hclosed : ∃ row ∈ snapshot.rows.filter isActive,
        (state.unsealed platform row.secret).isOk = false :=
      ⟨row, hrow, Bool.eq_false_iff.mpr hfails⟩
    obtain ⟨⟨error, herror⟩, -⟩ := Vault.materialize_error hclosed state.directory
    simp [State.materialize, herror, Except.isOk, Except.toBool] at hok
  exact (Vault.materialize_written h.ids hunsealed state.directory).2.exact h.formed h.names

theorem Sound.write {snapshot : Snapshot} (h : Sound platform state)
    (hworker : state.workers[id]? = some worker) (hphase : worker.phase = .listed snapshot) :
    Sound platform ((state.materialize platform id snapshot).2.setWorker id
      (if (state.materialize platform id snapshot).1.isOk then worker.written snapshot
        else worker.fail)) := by
  have hsound := h.workers id worker hworker
  obtain ⟨hrests, hlisted, -⟩ : Rests platform state worker ∧ Listed platform state snapshot ∧
      (worker.revision = some (.of (telegramEntry snapshot.entries)) ∨ Lapsed state worker) := by
    unfold Worker.Sound at hsound
    rwa [hphase] at hsound
  have hafter : ∀ after : Worker, after = (if (state.materialize platform id snapshot).1.isOk then
      worker.written snapshot else worker.fail) → after.Sound platform state ∧
        (∀ other, after.phase ≠ .listed other) ∧ (∀ other, after.phase ≠ .synced other) ∧
          after.revision = worker.revision := by
    rintro after rfl
    split
    · obtain ⟨⟨hlisted, hsynced, -⟩, hrevision⟩ := quiet_compareRevision { worker with
        runtimeRevision := some (runtimeRevision snapshot.entries) } (telegramEntry snapshot.entries)
      exact ⟨sound_written hsound hphase, hlisted, hsynced, hrevision⟩
    · obtain ⟨hlisted, hsynced, -⟩ := quiet_fail worker
      exact ⟨hrests.fail, hlisted, hsynced, rfl⟩
  generalize hchosen : (if (state.materialize platform id snapshot).1.isOk then
    worker.written snapshot else worker.fail) = after at hafter ⊢
  obtain ⟨hsound, hunlisted, hunsynced, hrevision⟩ := hafter after rfl
  have hadvances : Advances state ((state.materialize platform id snapshot).2.setWorker id after) :=
    .of_table rfl rfl fun hsome => hsome
  have hget {other : Nat} {found : Worker} := getElem?_moved other found hworker
    (rfl : ((state.materialize platform id snapshot).2.setWorker id after).workers =
      state.workers.set id after)
  refine h.move hworker rfl hadvances (h.recorded.of_table rfl rfl) rfl
    (hsound.advances hadvances) ?_ ?_ ?_ ?_
  · intro hlocks
    obtain ⟨other, hother⟩ := Worker.isListed_iff.mp hlocks
    exact absurd hother (hunlisted other)
  · intro write hwrite
    cases hwrite
    refine ⟨hlisted.version, fun hdone => ?_⟩
    have hdone : (state.materialize platform id snapshot).1.isOk = true := hdone
    rw [if_pos hdone] at hchosen
    have hruntime : after.runtimeRevision = some (runtimeRevision snapshot.entries) := by
      rw [← hchosen]
      exact (quiet_compareRevision _ _).1.runtime
    exact ⟨after, snapshot.entries, hget.mpr (.inl ⟨rfl, rfl⟩), hruntime, hlisted.committed,
      hlisted.exact hdone⟩
  · intro other found taken write hfound hlocks hwrite
    rcases hget.mp hfound with ⟨rfl, rfl⟩ | ⟨hne, hold⟩
    · exact absurd hlocks (hunlisted taken)
    · exact absurd (h.alone other id found worker hold hworker (Worker.isListed_iff.mpr ⟨_, hlocks⟩)
        (Worker.isListed_iff.mpr ⟨_, hphase⟩)) hne
  · intro other entry hsync
    refine (h.synced other entry hsync).move hworker rfl hadvances rfl fun hsame => ?_
    subst hsame
    obtain ⟨hfollows, hlapsed⟩ := (h.agrees hworker hsync).of_same hrevision hunsynced
    exact ⟨hfollows, hlapsed⟩

theorem Sound.sync (h : Sound platform state) (hworker : state.workers[id]? = some worker)
    (hphase : worker.phase = .configured entry) :
    Sound platform (State.setWorker { state with
        users := (syncAdminRoles worker.settings.adminIds state.users).2
        lastSync := some (id, entry) }
      id { worker with phase := .synced entry }) := by
  have hsound := h.workers id worker hworker
  unfold Worker.Sound at hsound
  rw [hphase] at hsound
  obtain ⟨hstarts, token, secret, htoken, hsecret, hsettings⟩ := hsound
  have hadvances : Advances state (State.setWorker { state with
        users := (syncAdminRoles worker.settings.adminIds state.users).2
        lastSync := some (id, entry) } id { worker with phase := .synced entry }) :=
    .of_table rfl rfl fun _ => rfl
  refine h.move hworker rfl hadvances (h.recorded.of_table rfl rfl) rfl ?_ ?_ ?_ ?_ ?_
  · have hnext := hstarts.advances hadvances
    exact ⟨⟨hnext.row, hnext.bot, hnext.lapsed⟩, ⟨token, secret, htoken, hsecret, hsettings⟩, rfl⟩
  · intro hlocks
    cases hlocks
  · exact fun write hwrite => (h.wrote write hwrite).move hworker rfl rfl rfl rfl rfl
  · intro other found snapshot write hfound hlocks hwrite
    rcases (getElem?_moved _ _ hworker rfl).mp hfound with ⟨rfl, rfl⟩ | ⟨-, hold⟩
    · cases hlocks
    · exact h.order other found snapshot write hold hlocks hwrite
  · intro other found hsync
    cases hsync
    refine ⟨hstarts.row.advances hadvances, ?_, { worker with phase := .synced entry }, ?_, ?_,
      .inr (hstarts.lapsed.advances hadvances)⟩
    · simp only [State.setWorker, hsettings, AdminRoles.sync_again]
    · exact (getElem?_moved _ _ hworker rfl).mpr (.inl ⟨rfl, rfl⟩)
    · intro other hsynced
      cases hsynced
      rfl

theorem Sound.boot (h : Sound platform state) :
    Sound platform { state with workers := state.workers ++ [.start] } := by
  have hadvances : Advances state { state with workers := state.workers ++ [.start] } :=
    .of_table rfl rfl fun hsome => hsome
  have hold : ∀ (other : Nat) (found : Worker), (state.workers ++ [.start])[other]? = some found →
      state.workers[other]? = some found ∨ found = .start := by
    intro other found hfound
    rw [List.getElem?_append] at hfound
    split at hfound
    · exact .inl hfound
    · exact .inr (List.mem_singleton.mp (List.mem_of_getElem? hfound))
  have hkeep : ∀ (other : Nat) (found : Worker), state.workers[other]? = some found →
      (state.workers ++ [.start])[other]? = some found := by
    intro other found hfound
    rw [List.getElem?_append_left (List.getElem?_eq_some_iff.mp hfound).1]
    exact hfound
  refine ⟨h.recorded.of_table rfl rfl, ?_, h.threads, ?_, ?_, ?_, ?_⟩
  · intro first second found found' hfirst hsecond hlisted hlisted'
    rcases hold first found hfirst with hfirst | rfl
    · rcases hold second found' hsecond with hsecond | rfl
      · exact h.alone first second found found' hfirst hsecond hlisted hlisted'
      · cases hlisted'
    · cases hlisted
  · intro id worker hworker
    rcases hold id worker hworker with hworker | rfl
    · exact (h.workers id worker hworker).advances hadvances
    · exact .inr ⟨rfl, fun pair hpair => by cases hpair⟩
  · intro write hwrite
    obtain ⟨hversion, hcomplete⟩ := h.wrote write hwrite
    refine ⟨hversion, fun hdone => ?_⟩
    obtain ⟨writer, entries, hwriter, hrest⟩ := hcomplete hdone
    exact ⟨writer, entries, hkeep _ _ hwriter, hrest⟩
  · intro id worker snapshot write hworker hphase hwrite
    rcases hold id worker hworker with hworker | rfl
    · exact h.order id worker snapshot write hworker hphase hwrite
    · cases hphase
  · intro id entry hsync
    obtain ⟨hrow, hroles, worker, hworker, hphase, hfollows⟩ := h.synced id entry hsync
    exact ⟨hrow.advances hadvances, hroles, worker, hkeep _ _ hworker, hphase,
      hfollows.imp (fun hsame => hsame) fun hlapsed => hlapsed.advances hadvances⟩

/-- The last write is of a snapshot that is not older than that of the last one before. -/
def Newer (state next : State Key) : Prop :=
  ∀ write, state.lastWrite = some write →
    ∃ later, next.lastWrite = some later ∧ write.version ≤ later.version

theorem Newer.of_same (h : next.lastWrite = state.lastWrite) : Newer state next :=
  fun write hwrite => ⟨write, h.trans hwrite, le_rfl⟩

theorem Sound.stop (h : Sound platform state) (hworker : state.workers[id]? = some worker) :
    Sound platform (state.setWorker id worker.stop) := by
  refine h.quiet_same hworker ?_ ?_ rfl
  · trivial
  · exact ⟨(fun _ h => by cases h), (fun _ h => by cases h), rfl⟩

theorem toOption_eq_some {Answer : Type} {result : Except String Answer} {answer : Answer} :
    result.toOption = some answer ↔ result = .ok answer := by
  cases result <;> simp [Except.toOption]

/-- One step of the server. -/
theorem Sound.step (h : Sound platform state) {action : Action}
    (horderly : state.orderly action = true)
    (hstep : state.step platform collate action = some next) :
    Sound platform next ∧ Newer state next := by
  cases action with
  | save data adminIds entryId salt webhookSalt drawn startedAt =>
      simp only [State.step] at hstep
      split at hstep
      · cases hstep
      · obtain ⟨table, htable, rfl⟩ := Option.map_eq_some_iff.mp hstep
        exact ⟨h.commit (h.recorded.save horderly (toOption_eq_some.mp htable)), .of_same rfl⟩
  | delete id =>
      obtain ⟨table, htable, rfl⟩ := Option.map_eq_some_iff.mp hstep
      exact ⟨h.commit (h.recorded.delete htable), .of_same rfl⟩
  | boot =>
      cases hstep
      exact ⟨h.boot, .of_same rfl⟩
  | list id =>
      obtain ⟨worker, hworker, hstep⟩ := Option.bind_eq_some_iff.mp hstep
      split at hstep
      · rename_i hfree
        simp only [Bool.and_eq_true, Bool.not_eq_true', Worker.isAsleep_iff] at hfree
        cases hstep
        exact ⟨h.list hworker hfree.1 hfree.2, .of_same rfl⟩
      · cases hstep
  | write id =>
      obtain ⟨worker, hworker, hstep⟩ := Option.bind_eq_some_iff.mp hstep
      cases hphase : worker.phase with
      | listed snapshot =>
          simp only [hphase] at hstep
          cases hstep
          exact ⟨h.write hworker hphase, fun write hwrite =>
            ⟨_, rfl, h.order id worker snapshot write hworker hphase hwrite⟩⟩
      | _ =>
          simp only [hphase] at hstep
          cases hstep
  | stopConnection id =>
      obtain ⟨worker, hworker, hstep⟩ := Option.bind_eq_some_iff.mp hstep
      cases hphase : worker.phase with
      | leaving entry =>
          simp only [hphase] at hstep
          cases hstep
          obtain ⟨hsound, hfollows⟩ := sound_stopConnection (h.workers id worker hworker) hphase
          refine ⟨h.quiet hworker hsound (quiet_stopConnection worker entry) ?_, .of_same rfl⟩
          intro row hagrees
          rcases hfollows with hsame | hlapsed
          · exact (hagrees.of_same hsame (quiet_stopConnection worker entry).synced).2
          · exact .inr hlapsed
      | _ =>
          simp only [hphase] at hstep
          cases hstep
  | configure id =>
      obtain ⟨worker, hworker, hstep⟩ := Option.bind_eq_some_iff.mp hstep
      cases hphase : worker.phase with
      | reset entry =>
          simp only [hphase] at hstep
          cases hstep
          have hstarts := h.workers id worker hworker
          unfold Worker.Sound at hstarts
          rw [hphase] at hstarts
          obtain ⟨hquiet, hrevision⟩ := quiet_configure worker (state.unsealed platform) entry
          exact ⟨h.quiet_same hworker (sound_configure hstarts) hquiet hrevision, .of_same rfl⟩
      | _ =>
          simp only [hphase] at hstep
          cases hstep
  | sync id succeeds =>
      obtain ⟨worker, hworker, hstep⟩ := Option.bind_eq_some_iff.mp hstep
      cases hphase : worker.phase with
      | configured entry =>
          simp only [hphase] at hstep
          cases succeeds with
          | true =>
              cases hstep
              exact ⟨h.sync hworker hphase, .of_same rfl⟩
          | false =>
              cases hstep
              have hsound := h.workers id worker hworker
              unfold Worker.Sound at hsound
              rw [hphase] at hsound
              exact ⟨h.quiet_same hworker hsound.1.rests.fail (quiet_fail worker) rfl, .of_same rfl⟩
      | _ =>
          simp only [hphase] at hstep
          cases hstep
  | connect id accepted =>
      obtain ⟨worker, hworker, hstep⟩ := Option.bind_eq_some_iff.mp hstep
      cases hphase : worker.phase with
      | synced entry =>
          simp only [hphase] at hstep
          cases hstep
          obtain ⟨hsound, hrevision⟩ := sound_connect (h.workers id worker hworker) hphase accepted
          refine ⟨h.quiet hworker hsound (quiet_connect worker entry accepted) ?_, .of_same rfl⟩
          intro row hagrees
          rcases hrevision with hsame | hnew
          · exact (hagrees.of_same hsame (quiet_connect worker entry accepted).synced).2
          · rw [hnew, hagrees.1 entry hphase]
            exact .inl rfl
      | _ =>
          simp only [hphase] at hstep
          cases hstep
  | stop id =>
      obtain ⟨worker, hworker, hstep⟩ := Option.bind_eq_some_iff.mp hstep
      have hasleep : worker.phase = .asleep := by
        simpa [State.orderly, hworker, Worker.isAsleep_iff] using horderly
      simp only [hasleep] at hstep
      split at hstep
      · cases hstep
        exact ⟨h.stop hworker, .of_same rfl⟩
      · cases hstep
  | writeLate index =>
      simp [State.step, h.threads] at hstep

theorem sound_of_reach {keyFile : Option Key} {directory : Directory} {users : List User}
    (hreach : Reach (State.step platform collate) (fun state action => state.orderly action = true)
      (State.start keyFile directory users) state) : Sound platform state := by
  apply hreach.invariant (Sound platform)
  · refine ⟨⟨⟨?_, ?_, ?_, List.nodup_nil, List.nodup_nil⟩, ?_, ?_, ?_, ?_⟩, ?_, rfl, ?_, ?_, ?_, ?_⟩
    all_goals simp [State.start]
  · exact fun before action after h horderly hstep => (h.step horderly hstep).1

theorem Newer.trans {last : State Key} (h : Newer state next) (h' : Newer next last) :
    Newer state last := by
  intro write hwrite
  obtain ⟨middle, hmiddle, hle⟩ := h write hwrite
  obtain ⟨later, hlater, hle'⟩ := h' middle hmiddle
  exact ⟨later, hlater, hle.trans hle'⟩

/-! ### When nothing is left to do -/

/-- Rows of which the revisions say what is in them. -/
theorem eq_of_pairs {first second : List Entry}
    (h : ∀ entry ∈ first, ∀ other ∈ second, entry.pair = other.pair → entry = other)
    (hpairs : first.map Entry.pair = second.map Entry.pair) : first = second := by
  induction first generalizing second with
  | nil => exact (List.map_eq_nil_iff.mp hpairs.symm).symm
  | cons entry first ih =>
      obtain ⟨other, rest, rfl, hpair, hrest⟩ := List.map_eq_cons_iff.mp hpairs.symm
      rw [h entry List.mem_cons_self other List.mem_cons_self hpair.symm]
      congr 1
      apply ih
      · exact fun entry hentry other hother =>
          h entry (List.mem_cons_of_mem _ hentry) other (List.mem_cons_of_mem _ hother)
      · exact hrest.symm

/-- The vault is about the rows that have no bot. -/
theorem active_rows (entries : List Entry) : (entries.map Entry.row).filter isActive =
    ((entries.filter fun entry => !entry.isTelegram).map Entry.row).filter isActive := by
  induction entries with
  | nil => rfl
  | cons entry entries ih =>
      cases htelegram : entry.isTelegram with
      | true =>
          have hkind : entry.row.kind = .telegram := of_decide_eq_true htelegram
          simp [htelegram, isActive, hkind, ih]
      | false =>
          simp only [List.map_cons, List.filter_cons, htelegram, Bool.not_false, if_true, ih]

/-- A refresh of this worker would find nothing to do. -/
def Worker.current (entries : List Entry) (worker : Worker) : Bool :=
  worker.isAsleep && worker.runtimeRevision = some (SettingsWatch.runtimeRevision entries) &&
    worker.revision = some (.of (telegramEntry entries))

def State.isLive (state : State Key) (id : Nat) : Bool :=
  state.workers[id]?.any fun worker => !worker.isStopped

/-- No worker has anything left to do, and those that have written the vault and synced the roles last
have not been stopped since. -/
def State.settled (collate : Text → Text → Bool) (state : State Key) : Bool :=
  (state.workers.all fun worker =>
    worker.isStopped || worker.current (state.table.list collate)) &&
  (state.lastWrite.any fun write => write.complete && state.isLive write.worker) &&
  state.lastSync.all fun sync => state.isLive sync.1

theorem Worker.current_iff {entries : List Entry} : worker.current entries = true ↔
    worker.phase = .asleep ∧
      worker.runtimeRevision = some (SettingsWatch.runtimeRevision entries) ∧
        worker.revision = some (.of (telegramEntry entries)) := by
  simp [Worker.current, Worker.isAsleep_iff, and_assoc]

theorem State.isLive_iff : state.isLive id = true ↔
    ∃ worker, state.workers[id]? = some worker ∧ worker.isStopped = false := by
  simp [State.isLive, Option.any_eq_true]

/-- What is to be the case for a state to be settled. -/
structure Settled (collate : Text → Text → Bool) (state : State Key) : Prop where
  current : ∀ worker ∈ state.workers, worker.isStopped = false →
    worker.current (state.table.list collate) = true
  wrote : ∃ write worker, state.lastWrite = some write ∧ write.complete = true ∧
    state.workers[write.worker]? = some worker ∧ worker.isStopped = false
  synced : ∀ id entry, state.lastSync = some (id, entry) →
    ∃ worker, state.workers[id]? = some worker ∧ worker.isStopped = false

theorem settled_of_eq_true (h : state.settled collate = true) : Settled collate state := by
  simp only [State.settled, Bool.and_eq_true, List.all_eq_true, Bool.or_eq_true,
    Option.any_eq_true, Option.all_eq_true] at h
  obtain ⟨⟨hcurrent, write, hwrite, hcomplete, hlive⟩, hsynced⟩ := h
  obtain ⟨worker, hworker, hlive⟩ := State.isLive_iff.mp hlive
  refine ⟨fun worker hmem hlive => ?_, ⟨write, worker, hwrite, hcomplete, hworker, hlive⟩, ?_⟩
  · exact (hcurrent worker hmem).resolve_left (by simp [hlive])
  · exact fun id entry hsync => State.isLive_iff.mp (hsynced (id, entry) hsync)

/-- The vault, the bots and the roles are as the rows say. -/
structure InForce (platform : Platform Key) (collate : Text → Text → Bool)
    (state : State Key) : Prop where
  vault : Exact (((state.table.list collate).map Entry.row).filter isActive) state.directory
  silent : (∀ entry, telegramEntry (state.table.list collate) = some entry →
    entry.row.enabled = false) → ∀ worker ∈ state.workers, worker.isStopped = false →
      worker.bot = none
  bots : ∀ entry, telegramEntry (state.table.list collate) = some entry →
    entry.row.enabled = true → ∀ worker ∈ state.workers, worker.isStopped = false →
      Configured platform state worker.settings entry ∧
        worker.bot = some ⟨entry.row.given, worker.mode⟩
  roles : ∀ entry, telegramEntry (state.table.list collate) = some entry →
    entry.row.enabled = true → (syncAdminRoles entry.options.adminIds state.users).2 = state.users

theorem Sound.vault (h : Sound platform state) (hsettled : Settled collate state) :
    Exact (((state.table.list collate).map Entry.row).filter isActive) state.directory := by
  obtain ⟨write, worker, hwrite, hcomplete, hworker, hlive⟩ := hsettled.wrote
  obtain ⟨writer, entries, hwriter, hruntime, hcommitted, hexact⟩ :=
    (h.wrote write hwrite).complete hcomplete
  obtain rfl := Option.some.inj (hworker.symm.trans hwriter)
  obtain ⟨-, hcurrent, -⟩ := Worker.current_iff.mp
    (hsettled.current worker (List.mem_of_getElem? hworker) hlive)
  have hpairs : runtimeRevision entries = runtimeRevision (state.table.list collate) :=
    Option.some.inj (hruntime.symm.trans hcurrent)
  have hsame := eq_of_pairs (fun entry hentry other hother => ?_) hpairs
  · rw [active_rows, ← hsame, ← active_rows]
    exact hexact
  · obtain ⟨row, hrow, rfl⟩ := mem_list.mp (List.mem_of_mem_filter hother)
    exact h.recorded.determined entry (hcommitted entry (List.mem_of_mem_filter hentry)) _
      (h.recorded.present row hrow)

/-- The row of the bot is there, so that its revision is not an old one. -/
theorem Recorded.not_lapsed (h : Recorded platform state)
    (hentry : telegramEntry (state.table.list collate) = some entry)
    (henabled : entry.row.enabled = true) (hrevision : worker.revision = some (.row entry.pair)) :
    ¬ Lapsed state worker := by
  obtain ⟨row, hrow, rfl⟩ := mem_list.mp (mem_telegramEntry hentry).1
  intro hlapsed
  rcases hlapsed _ hrevision with ⟨-, habsent⟩ | ⟨other, hother, hpair, hdisabled⟩
  · exact habsent row hrow rfl
  · rw [h.determined other hother _ (h.present row hrow) hpair, henabled] at hdisabled
    cases hdisabled

/-- A worker whose revision is that of the row of the bot serves it. -/
theorem Sound.serves (h : Sound platform state) (hworker : state.workers[id]? = some worker)
    (hcurrent : worker.current (state.table.list collate) = true)
    (hentry : telegramEntry (state.table.list collate) = some entry)
    (henabled : entry.row.enabled = true) : Serves platform state worker entry := by
  obtain ⟨hasleep, -, hrevision⟩ := Worker.current_iff.mp hcurrent
  rw [hentry] at hrevision
  rcases (h.workers id worker hworker).asleep hasleep with
    ⟨other, hserves⟩ | ⟨-, hlapsed⟩
  · obtain ⟨row, hrow, rfl⟩ := mem_list.mp (mem_telegramEntry hentry).1
    have hpair : other.pair = (state.table.entry row).pair := by
      simpa [Revision.of] using hserves.revision.symm.trans hrevision
    have hsame := h.recorded.determined other hserves.row.mem _ (h.recorded.present row hrow) hpair
    rwa [hsame] at hserves
  · exact absurd hlapsed (h.recorded.not_lapsed hentry henabled hrevision)

theorem Sound.silent (h : Sound platform state) (hworker : state.workers[id]? = some worker)
    (hcurrent : worker.current (state.table.list collate) = true)
    (hnone : ∀ entry, telegramEntry (state.table.list collate) = some entry →
      entry.row.enabled = false) : worker.bot = none := by
  obtain ⟨hasleep, -, hrevision⟩ := Worker.current_iff.mp hcurrent
  rcases (h.workers id worker hworker).asleep hasleep with
    ⟨other, hserves⟩ | ⟨hbot, -⟩
  · have hsame := hserves.revision.symm.trans hrevision
    cases hentry : telegramEntry (state.table.list collate) with
    | none =>
        rw [hentry] at hsame
        cases hsame
    | some entry =>
        have hpair : other.pair = entry.pair := by
          simpa [hentry, Revision.of] using hsame
        obtain ⟨row, hrow, rfl⟩ := mem_list.mp (mem_telegramEntry hentry).1
        have henabled := hserves.row.enabled
        rw [h.recorded.determined other hserves.row.mem _ (h.recorded.present row hrow) hpair,
          hnone _ hentry] at henabled
        cases henabled
  · exact hbot

theorem Sound.inForce (h : Sound platform state) (hsettled : Settled collate state) :
    InForce platform collate state := by
  have hserves : ∀ entry, telegramEntry (state.table.list collate) = some entry →
      entry.row.enabled = true → ∀ worker ∈ state.workers, worker.isStopped = false →
        Serves platform state worker entry := by
    intro entry hentry henabled worker hmem hlive
    obtain ⟨id, hworker⟩ := List.mem_iff_getElem?.mp hmem
    exact h.serves hworker (hsettled.current worker hmem hlive) hentry henabled
  refine ⟨h.vault hsettled, fun hnone worker hmem hlive => ?_,
    fun entry hentry henabled worker hmem hlive => ?_, fun entry hentry henabled => ?_⟩
  · obtain ⟨id, hworker⟩ := List.mem_iff_getElem?.mp hmem
    exact h.silent hworker (hsettled.current worker hmem hlive) hnone
  · have hserving := hserves entry hentry henabled worker hmem hlive
    refine ⟨hserving.configured, ?_⟩
    obtain ⟨token, secret, htoken, -, hsettings⟩ := hserving.configured
    obtain ⟨row, hrow, rfl⟩ := mem_list.mp (mem_telegramEntry hentry).1
    have hgiven : state.unsealed platform row.secret = .ok row.given :=
      Vault.unsealSecret_eq (h.recorded.kept.sealed row hrow) (by
        rw [entry_row] at htoken
        unfold State.unsealed at htoken
        rw [htoken]
        rfl)
    have hsame : token = row.given := by
      rw [entry_row, hgiven] at htoken
      cases htoken
      rfl
    rw [hserving.bot, hsettings, hsame, entry_row]
  · obtain ⟨write, writer, -, -, hwriter, hlive⟩ := hsettled.wrote
    have hserving := hserves entry hentry henabled writer (List.mem_of_getElem? hwriter) hlive
    obtain ⟨⟨id, synced⟩, hsync⟩ := Option.isSome_iff_exists.mp hserving.synced
    have hlast := h.synced id synced hsync
    obtain ⟨syncer, hsyncer, hlive'⟩ := hsettled.synced id synced hsync
    have hserves' := hserves entry hentry henabled syncer (List.mem_of_getElem? hsyncer) hlive'
    have hpair : synced.pair = entry.pair := by
      rcases (h.agrees hsyncer hsync).2 with hsame | hlapsed
      · simpa using hsame.symm.trans hserves'.revision
      · exact absurd hlapsed (h.recorded.not_lapsed hentry henabled hserves'.revision)
    rw [← h.recorded.determined synced hlast.row.mem entry hserves'.row.mem hpair]
    exact hlast.roles

/-- **The settings come into force.** As long as no worker is stopped in the middle of a refresh, one
worker at a time lists and writes, no snapshot takes the place of a newer one, and whenever no worker
has anything left to do and those that have written and synced last are there, the vault, the bots and
the roles are as the rows say. -/
theorem settings_in_force {keyFile : Option Key} {directory : Directory} {users : List User}
    (hreach : Reach (State.step platform collate) (fun state action => state.orderly action = true)
      (State.start keyFile directory users) state) :
    (∀ (id other : Nat) (worker found : Worker), state.workers[id]? = some worker →
      state.workers[other]? = some found → worker.isListed = true → found.isListed = true →
        id = other) ∧
    (∀ later, Reach (State.step platform collate) (fun state action => state.orderly action = true)
      state later → Newer state later) ∧
    (state.settled collate = true → InForce platform collate state) := by
  have hsound := sound_of_reach hreach
  refine ⟨hsound.alone, fun later hlater => ?_, fun hsettled =>
    hsound.inForce (settled_of_eq_true hsettled)⟩
  induction hlater with
  | refl => exact fun write hwrite => ⟨write, hwrite, le_rfl⟩
  | tail action hbefore horderly hstep ih =>
      exact ih.trans ((sound_of_reach (hreach.trans hbefore)).step horderly hstep).2

end

/-! ### Two workers -/

section

open Vault (somePlatform deployKey botToken)

def anyOrder (_ _ : Text) : Bool := true

def someAdmins : List User := [⟨some 7, none, .user⟩, ⟨some 8, none, .admin⟩]

/-- A server without rows, in front of an empty vault. -/
def bare : State Nat := .start (some 1) (fun _ => none) someAdmins

/-- A worker starts and finds no row. -/
def started (id : Nat) : List Action := [.boot, .list id, .write id, .stopConnection id]

/-- A worker with the row of a bot: its connection. -/
def serve (id : Nat) : List Action := [.stopConnection id, .configure id, .sync id true, .connect id true]

/-- A key and a bot are saved. Before the first worker has synced the roles, the list of the bot is
changed and the second worker has synced them. -/
def overtaken : List Action :=
  started 0 ++ started 1 ++
    [.save deployKey [] none 0 0 [] 1, .list 0, .write 0, .save botToken [7] none 0 0 [] 2, .list 0,
      .stopConnection 0, .configure 0, .save botToken [8] (some 2) 1 0 [] 3, .list 1, .write 1] ++
    serve 1 ++ [.sync 0 true, .connect 0 true, .list 0] ++ serve 0

theorem settings_in_force_overtaken :
    ∃ state, run (State.step somePlatform anyOrder) bare overtaken = some state ∧
      state.settled anyOrder = true ∧ state.users = [⟨some 7, none, .user⟩, ⟨some 8, none, .admin⟩] ∧
      InForce somePlatform anyOrder state := by
  have hruns : (run (State.step somePlatform anyOrder) bare overtaken).any (fun state =>
      state.settled anyOrder &&
        state.users = [⟨some 7, none, .user⟩, ⟨some 8, none, .admin⟩]) = true := by
    decide +kernel
  have horderly : RunAllowed (State.step somePlatform anyOrder)
      (fun state action => state.orderly action = true) bare overtaken := by
    decide +kernel
  obtain ⟨state, hrun, hstate⟩ : ∃ state,
      run (State.step somePlatform anyOrder) bare overtaken = some state ∧
        (state.settled anyOrder &&
          state.users = [⟨some 7, none, .user⟩, ⟨some 8, none, .admin⟩]) = true := by
    rwa [Option.any_eq_true] at hruns
  obtain ⟨hsettled, husers⟩ := Bool.and_eq_true_iff.mp hstate
  exact ⟨state, hrun, hsettled, of_decide_eq_true husers,
    (settings_in_force (reach_of_run hrun horderly)).2.2 hsettled⟩

/-- Nothing is left to do for the workers that are there, and the key is in the vault. -/
def keepsKey (state : State Nat) : Bool :=
  (state.workers.all fun worker =>
    worker.isStopped || worker.current (state.table.list anyOrder)) &&
  state.table.vault.rows.isEmpty && (state.directory "managed_1".toList).isSome

/-- A worker is stopped while it writes; its thread puts the key back that has been deleted. -/
example : (run (State.step somePlatform anyOrder) bare (started 0 ++ started 1 ++
    [.save deployKey [] none 0 0 [] 1, .list 0, .stop 0, .list 1, .write 1, .delete 1, .list 1,
      .write 1, .writeLate 0])).any keepsKey = true := by
  decide +kernel

/-- Only one worker has seen the key, and it is stopped before it sees that the key is gone. -/
example : (run (State.step somePlatform anyOrder) bare (started 0 ++ started 1 ++
    [.save deployKey [] none 0 0 [] 1, .list 1, .write 1, .delete 1, .stop 1, .list 0])).any
      keepsKey = true := by
  decide +kernel

end

end CodexServer.SettingsWatch
