import Mathlib.Logic.Function.Basic
import Mathlib.Order.Nat
import CodexServer.Library.Transition

/-!
# A table under concurrent transactions

Rows live in two versions. The committed one is what every transaction reads; a transaction that has
written a row keeps its own version as a draft and holds the row's lock until it commits or rolls
back. An `UPDATE … WHERE` whose condition fails on the version it reads touches nothing; one whose
condition holds on a row another transaction is writing waits. An `INSERT` takes the next value of a
sequence, which no rollback returns, and is checked against a partial unique index: at most one live
row in each group.

The file proves three rules for every schedule of statements, commits and rollbacks: the index is
respected by the committed rows (`Reach.exclusive`), a row is always what its committed effects made
of it (`Reach.traced`), and a committed row only moves along the schema's own order of versions
(`Reach.evolves`).
-/

namespace Versioned

/-- A version of a row that is not committed yet, and the effects that led to it. -/
structure Draft (Tx Row Effect : Type) where
  owner : Tx
  row : Row
  effects : List Effect

structure Table (Tx Row Effect : Type) where
  committed : Nat → Option Row
  draft : Nat → Option (Draft Tx Row Effect)
  history : Nat → List Effect
  nextId : Nat

/-- What the statements of a program do to one row, and which rows its unique index covers. -/
structure Schema (Row Effect Update Payload Group : Type) where
  update : Update → Row → Option (Row × Effect)
  insert : Payload → Nat → Row × Effect
  live : Row → Bool
  group : Row → Group

inductive Action (Tx Update Payload : Type)
  | update (tx : Tx) (key : Nat) (statement : Update)
  | insert (tx : Tx) (payload : Payload)
  | commit (tx : Tx)
  | rollback (tx : Tx)

variable {Tx Row Effect Update Payload Group : Type} [DecidableEq Tx] [DecidableEq Group]

namespace Table

variable (table : Table Tx Row Effect)

def empty : Table Tx Row Effect where
  committed := fun _ => none
  draft := fun _ => none
  history := fun _ => []
  nextId := 1

/-- The version a transaction sees: its own draft, and the committed row otherwise. -/
def view (tx : Tx) (key : Nat) : Option Row :=
  match table.draft key with
  | some draft => if draft.owner = tx then some draft.row else table.committed key
  | none => table.committed key

/-- `SELECT` of one row, as the transaction sees the table. -/
def find? (tx : Tx) (wanted : Row → Bool) : Option (Nat × Row) :=
  (List.range table.nextId).findSome? fun key =>
    ((table.view tx key).filter wanted).map fun row => (key, row)

def write (key : Nat) (draft : Draft Tx Row Effect) : Table Tx Row Effect :=
  { table with draft := Function.update table.draft key (some draft) }

def commit (tx : Tx) : Table Tx Row Effect where
  committed := fun key => match table.draft key with
    | some draft => if draft.owner = tx then some draft.row else table.committed key
    | none => table.committed key
  draft := fun key => (table.draft key).filter fun draft => draft.owner ≠ tx
  history := fun key => match table.draft key with
    | some draft => if draft.owner = tx then table.history key ++ draft.effects
        else table.history key
    | none => table.history key
  nextId := table.nextId

def rollback (tx : Tx) : Table Tx Row Effect :=
  { table with draft := fun key => (table.draft key).filter fun draft => draft.owner ≠ tx }

end Table

namespace Schema

variable (schema : Schema Row Effect Update Payload Group) (table : Table Tx Row Effect)

/-- `UPDATE … WHERE id = key`: the answer is whether a row was changed; `none` is waiting for the
row's lock. -/
def execUpdate (tx : Tx) (key : Nat) (statement : Update) : Option (Bool × Table Tx Row Effect) :=
  match table.draft key with
  | some draft =>
      if draft.owner = tx then
        match schema.update statement draft.row with
        | some (row, effect) => some (true, table.write key ⟨tx, row, draft.effects ++ [effect]⟩)
        | none => some (false, table)
      else
        match (table.committed key).bind (schema.update statement) with
        | some _ => none
        | none => some (false, table)
  | none =>
      match (table.committed key).bind (schema.update statement) with
      | some (row, effect) => some (true, table.write key ⟨tx, row, [effect]⟩)
      | none => some (false, table)

def covers (group : Group) (row : Row) : Bool :=
  schema.live row && decide (schema.group row = group)

/-- The new row collides with a row this transaction sees. -/
def conflicts (tx : Tx) (group : Group) (key : Nat) : Bool :=
  (table.view tx key).any (schema.covers group)

/-- Another transaction is writing a row of the group: the index entry is in doubt. -/
def inDoubt (tx : Tx) (group : Group) (key : Nat) : Bool :=
  (table.draft key).any fun draft => decide (draft.owner ≠ tx) &&
    (schema.covers group draft.row || (table.committed key).any (schema.covers group))

/-- `INSERT`: `none` waits for the transaction that holds the index entry; answer `none` is the
integrity error, which ends the transaction. -/
def execInsert (tx : Tx) (payload : Payload) : Option (Option Nat × Table Tx Row Effect) :=
  let (row, effect) := schema.insert payload table.nextId
  let keys := List.range table.nextId
  if keys.any (schema.inDoubt table tx (schema.group row)) then none
  else if keys.any (schema.conflicts table tx (schema.group row)) then
    some (none, { table.rollback tx with nextId := table.nextId + 1 })
  else
    some (some table.nextId,
      { table.write table.nextId ⟨tx, row, [effect]⟩ with nextId := table.nextId + 1 })

/-- `INSERT … ON CONFLICT DO NOTHING`: answer `none` is a row that is there already. -/
def execInsertOrNothing (tx : Tx) (payload : Payload) : Option (Option Nat × Table Tx Row Effect) :=
  let (row, effect) := schema.insert payload table.nextId
  let keys := List.range table.nextId
  if keys.any (schema.inDoubt table tx (schema.group row)) then none
  else if keys.any (schema.conflicts table tx (schema.group row)) then
    some (none, { table with nextId := table.nextId + 1 })
  else
    some (some table.nextId,
      { table.write table.nextId ⟨tx, row, [effect]⟩ with nextId := table.nextId + 1 })

def step (table : Table Tx Row Effect) :
    Action Tx Update Payload → Option (Table Tx Row Effect)
  | .update tx key statement => (schema.execUpdate table tx key statement).map Prod.snd
  | .insert tx payload => (schema.execInsert table tx payload).map Prod.snd
  | .commit tx => some (table.commit tx)
  | .rollback tx => some (table.rollback tx)

/-! ### What one step can do -/

omit [DecidableEq Group] in
theorem execUpdate_cases {table next : Table Tx Row Effect} {tx : Tx} {key : Nat}
    {statement : Update} {changed : Bool}
    (h : schema.execUpdate table tx key statement = some (changed, next)) :
    (changed = false ∧ next = table) ∨
    (∃ draft row effect, changed = true ∧ table.draft key = some draft ∧ draft.owner = tx ∧
      schema.update statement draft.row = some (row, effect) ∧
      next = table.write key ⟨tx, row, draft.effects ++ [effect]⟩) ∨
    (∃ before row effect, changed = true ∧ table.draft key = none ∧
      table.committed key = some before ∧ schema.update statement before = some (row, effect) ∧
      next = table.write key ⟨tx, row, [effect]⟩) := by
  unfold execUpdate at h
  cases hdraft : table.draft key with
  | some draft =>
      simp only [hdraft] at h
      by_cases howner : draft.owner = tx
      · rw [if_pos howner] at h
        cases hupdate : schema.update statement draft.row with
        | none =>
            simp only [hupdate, Option.some.injEq, Prod.mk.injEq] at h
            exact Or.inl ⟨h.1.symm, h.2.symm⟩
        | some pair =>
            obtain ⟨row, effect⟩ := pair
            simp only [hupdate, Option.some.injEq, Prod.mk.injEq] at h
            exact Or.inr (Or.inl ⟨draft, row, effect, h.1.symm, rfl, howner, hupdate, h.2.symm⟩)
      · rw [if_neg howner] at h
        cases hupdate : (table.committed key).bind (schema.update statement) with
        | none =>
            simp only [hupdate, Option.some.injEq, Prod.mk.injEq] at h
            exact Or.inl ⟨h.1.symm, h.2.symm⟩
        | some pair => simp [hupdate] at h
  | none =>
      simp only [hdraft] at h
      cases hupdate : (table.committed key).bind (schema.update statement) with
      | none =>
          simp only [hupdate, Option.some.injEq, Prod.mk.injEq] at h
          exact Or.inl ⟨h.1.symm, h.2.symm⟩
      | some pair =>
          obtain ⟨row, effect⟩ := pair
          obtain ⟨before, hbefore, hrow⟩ := Option.bind_eq_some_iff.mp hupdate
          simp only [hupdate, Option.some.injEq, Prod.mk.injEq] at h
          exact Or.inr (Or.inr ⟨before, row, effect, h.1.symm, rfl, hbefore, hrow, h.2.symm⟩)

omit [DecidableEq Group] in
/-- Where no row is changed, there is no committed row that would be. -/
theorem execUpdate_unchanged {table next : Table Tx Row Effect} {tx : Tx} {key : Nat}
    {statement : Update} (hforeign : ∀ draft, table.draft key = some draft → draft.owner ≠ tx)
    (h : schema.execUpdate table tx key statement = some (false, next)) :
    (table.committed key).bind (schema.update statement) = none := by
  unfold execUpdate at h
  cases hdraft : table.draft key with
  | some draft =>
      simp only [hdraft, if_neg (hforeign draft hdraft)] at h
      cases hupdate : (table.committed key).bind (schema.update statement) with
      | none => rfl
      | some pair => simp [hupdate] at h
  | none =>
      simp only [hdraft] at h
      cases hupdate : (table.committed key).bind (schema.update statement) with
      | none => rfl
      | some pair => simp [hupdate] at h

theorem execInsert_cases {table next : Table Tx Row Effect} {tx : Tx} {payload : Payload}
    {answer : Option Nat} (h : schema.execInsert table tx payload = some (answer, next)) :
    (answer = none ∧ next = { table.rollback tx with nextId := table.nextId + 1 }) ∨
    (answer = some table.nextId ∧
      (∀ key < table.nextId,
        schema.inDoubt table tx (schema.group (schema.insert payload table.nextId).1) key = false ∧
        schema.conflicts table tx (schema.group (schema.insert payload table.nextId).1) key
          = false) ∧
      next = { table.write table.nextId ⟨tx, (schema.insert payload table.nextId).1,
        [(schema.insert payload table.nextId).2]⟩ with nextId := table.nextId + 1 }) := by
  unfold execInsert at h
  simp only at h
  split_ifs at h with hdoubt hconflict
  · simp only [Option.some.injEq, Prod.mk.injEq] at h
    exact Or.inl ⟨h.1.symm, h.2.symm⟩
  · simp only [Option.some.injEq, Prod.mk.injEq] at h
    refine Or.inr ⟨h.1.symm, fun key hkey => ?_, h.2.symm⟩
    simp only [Bool.not_eq_true, List.any_eq_false, List.mem_range] at hdoubt hconflict
    exact ⟨by simpa using hdoubt key hkey, by simpa using hconflict key hkey⟩

/-- The integrity error is that of a row which the transaction sees. -/
theorem execInsert_conflicts {table next : Table Tx Row Effect} {tx : Tx} {payload : Payload}
    {answer : Option Nat} (h : schema.execInsert table tx payload = some (answer, next)) :
    (List.range table.nextId).any (schema.conflicts table tx
      (schema.group (schema.insert payload table.nextId).1)) = answer.isNone := by
  unfold execInsert at h
  simp only at h
  split_ifs at h with hdoubt hconflict
  · cases h
    exact hconflict
  · cases h
    simpa using hconflict

theorem execInsertOrNothing_cases {table next : Table Tx Row Effect} {tx : Tx} {payload : Payload}
    {answer : Option Nat} (h : schema.execInsertOrNothing table tx payload = some (answer, next)) :
    (answer = none ∧ next = { table with nextId := table.nextId + 1 }) ∨
    (answer = some table.nextId ∧
      (∀ key < table.nextId,
        schema.inDoubt table tx (schema.group (schema.insert payload table.nextId).1) key = false ∧
        schema.conflicts table tx (schema.group (schema.insert payload table.nextId).1) key
          = false) ∧
      next = { table.write table.nextId ⟨tx, (schema.insert payload table.nextId).1,
        [(schema.insert payload table.nextId).2]⟩ with nextId := table.nextId + 1 }) := by
  unfold execInsertOrNothing at h
  simp only at h
  split_ifs at h with hdoubt hconflict
  · simp only [Option.some.injEq, Prod.mk.injEq] at h
    exact Or.inl ⟨h.1.symm, h.2.symm⟩
  · simp only [Option.some.injEq, Prod.mk.injEq] at h
    refine Or.inr ⟨h.1.symm, fun key hkey => ?_, h.2.symm⟩
    simp only [Bool.not_eq_true, List.any_eq_false, List.mem_range] at hdoubt hconflict
    exact ⟨by simpa using hdoubt key hkey, by simpa using hconflict key hkey⟩

/-- The ways a table moves, whatever the statement was called. -/
inductive Moves (table : Table Tx Row Effect) : Table Tx Row Effect → Prop
  | stay : Moves table table
  | rewrite (key : Nat) (draft : Draft Tx Row Effect) (statement : Update) (row : Row)
      (effect : Effect) (hdraft : table.draft key = some draft)
      (hupdate : schema.update statement draft.row = some (row, effect)) :
      Moves table (table.write key ⟨draft.owner, row, draft.effects ++ [effect]⟩)
  | checkout (tx : Tx) (key : Nat) (before : Row) (statement : Update) (row : Row)
      (effect : Effect) (hdraft : table.draft key = none)
      (hcommitted : table.committed key = some before)
      (hupdate : schema.update statement before = some (row, effect)) :
      Moves table (table.write key ⟨tx, row, [effect]⟩)
  | insert (tx : Tx) (payload : Payload) (row : Row) (effect : Effect)
      (hinsert : schema.insert payload table.nextId = (row, effect))
      (hdoubt : ∀ key < table.nextId, schema.inDoubt table tx (schema.group row) key = false)
      (hfree : ∀ key < table.nextId, schema.conflicts table tx (schema.group row) key = false) :
      Moves table
        { table.write table.nextId ⟨tx, row, [effect]⟩ with nextId := table.nextId + 1 }
  | commit (tx : Tx) : Moves table (table.commit tx)
  | rollback (tx : Tx) (nextId : Nat) (hnext : table.nextId ≤ nextId) :
      Moves table { table.rollback tx with nextId := nextId }

theorem step_moves {table next : Table Tx Row Effect} {action : Action Tx Update Payload}
    (h : schema.step table action = some next) : schema.Moves table next := by
  cases action with
  | update tx key statement =>
      obtain ⟨⟨changed, _⟩, hexec, rfl⟩ := Option.map_eq_some_iff.mp h
      rcases schema.execUpdate_cases hexec with ⟨-, rfl⟩ |
        ⟨draft, row, effect, -, hdraft, rfl, hupdate, rfl⟩ |
        ⟨before, row, effect, -, hdraft, hbefore, hupdate, rfl⟩
      · exact .stay
      · exact .rewrite key draft statement row effect hdraft hupdate
      · exact .checkout tx key before statement row effect hdraft hbefore hupdate
  | insert tx payload =>
      obtain ⟨⟨answer, _⟩, hexec, rfl⟩ := Option.map_eq_some_iff.mp h
      rcases schema.execInsert_cases hexec with ⟨-, rfl⟩ | ⟨-, hfree, rfl⟩
      · exact .rollback tx _ (Nat.le_succ _)
      · exact .insert tx payload _ _ rfl (fun key hkey => (hfree key hkey).1)
          fun key hkey => (hfree key hkey).2
  | commit tx =>
      cases h
      exact .commit tx
  | rollback tx =>
      cases h
      exact .rollback tx _ le_rfl

theorem execUpdate_moves {table next : Table Tx Row Effect} {tx : Tx} {key : Nat}
    {statement : Update} {changed : Bool}
    (h : schema.execUpdate table tx key statement = some (changed, next)) :
    schema.Moves table next :=
  schema.step_moves
    (show schema.step table (.update tx key statement) = some next from
      congrArg (Option.map Prod.snd) h)

end Schema

/-! ### Versions after a step -/

namespace Table

variable {table : Table Tx Row Effect} {tx : Tx} {key : Nat} {row : Row}
  {draft : Draft Tx Row Effect}

omit [DecidableEq Tx] in
theorem draft_write_cases {other : Nat} {new : Draft Tx Row Effect}
    (h : (table.write key new).draft other = some draft) :
    (other = key ∧ draft = new) ∨ (other ≠ key ∧ table.draft other = some draft) := by
  by_cases hkey : other = key
  · subst hkey
    exact Or.inl ⟨rfl, by simpa [write, eq_comm] using h⟩
  · exact Or.inr ⟨hkey, by simpa [write, hkey] using h⟩

theorem draft_rollback_cases (h : (table.rollback tx).draft key = some draft) :
    table.draft key = some draft ∧ draft.owner ≠ tx := by
  simpa [rollback, Option.filter_eq_some_iff] using h

theorem draft_commit_cases (h : (table.commit tx).draft key = some draft) :
    table.draft key = some draft ∧ draft.owner ≠ tx := by
  simpa [commit, Option.filter_eq_some_iff] using h

theorem find?_some {wanted : Row → Bool} (h : table.find? tx wanted = some (key, row)) :
    table.view tx key = some row ∧ wanted row = true := by
  obtain ⟨other, -, hother⟩ := List.exists_of_findSome?_eq_some h
  obtain ⟨found, hfound, heq⟩ := Option.map_eq_some_iff.mp hother
  cases heq
  exact Option.filter_eq_some_iff.mp hfound

theorem find?_none {wanted : Row → Bool} (h : table.find? tx wanted = none)
    (hlt : key < table.nextId) (hview : table.view tx key = some row) : wanted row = false := by
  have hkey := List.findSome?_eq_none_iff.mp h key (List.mem_range.mpr hlt)
  by_contra hwanted
  simp [hview, hwanted] at hkey

/-- A transaction sees its own version of a row, or the committed one. -/
theorem view_cases (table : Table Tx Row Effect) (h : table.view tx key = some row) :
    (∃ draft, table.draft key = some draft ∧ draft.owner = tx ∧ row = draft.row) ∨
    ((∀ draft, table.draft key = some draft → draft.owner ≠ tx) ∧
      table.committed key = some row) := by
  cases hdraft : table.draft key with
  | none => exact Or.inr ⟨by simp, by simpa [view, hdraft] using h⟩
  | some draft =>
      by_cases howner : draft.owner = tx
      · exact Or.inl ⟨draft, rfl, howner, by simpa [view, hdraft, howner, eq_comm] using h⟩
      · exact Or.inr ⟨by simpa using howner, by simpa [view, hdraft, howner] using h⟩

/-- Who writes no version of a row sees the committed one. -/
theorem view_of_foreign (h : ∀ draft, table.draft key = some draft → draft.owner ≠ tx) :
    table.view tx key = table.committed key := by
  unfold view
  cases hdraft : table.draft key with
  | none => rfl
  | some draft => exact if_neg (h draft hdraft)

/-- After a commit a row and its history are the transaction's own version, or what they were. -/
theorem commit_at (table : Table Tx Row Effect) (tx : Tx) (key : Nat) :
    (∃ draft, table.draft key = some draft ∧ draft.owner = tx ∧
      (table.commit tx).committed key = some draft.row ∧
      (table.commit tx).history key = table.history key ++ draft.effects) ∨
    ((∀ draft, table.draft key = some draft → draft.owner ≠ tx) ∧
      (table.commit tx).committed key = table.committed key ∧
      (table.commit tx).history key = table.history key) := by
  cases hdraft : table.draft key with
  | none => exact Or.inr ⟨by simp, by simp [commit, hdraft], by simp [commit, hdraft]⟩
  | some draft =>
      by_cases howner : draft.owner = tx
      · exact Or.inl ⟨draft, rfl, howner, by simp [commit, hdraft, howner],
          by simp [commit, hdraft, howner]⟩
      · exact Or.inr ⟨by simpa using howner, by simp [commit, hdraft, howner],
          by simp [commit, hdraft, howner]⟩

/-- A commit leaves a row alone that another transaction is writing. -/
theorem commit_foreign (hdraft : table.draft key = some draft) (hne : draft.owner ≠ tx) :
    (table.commit tx).committed key = table.committed key ∧
      (table.commit tx).draft key = some draft := by
  refine ⟨?_, by simp [commit, hdraft, hne]⟩
  rcases table.commit_at tx key with ⟨mine, hmine, howner, _⟩ | ⟨_, hsame, _⟩
  · cases hdraft.symm.trans hmine
    exact absurd howner hne
  · exact hsame

end Table

namespace Schema

variable {schema : Schema Row Effect Update Payload Group}
  {Allowed : Table Tx Row Effect → Action Tx Update Payload → Prop}
  {table next : Table Tx Row Effect}

/-! ### What the committed effects made of a row -/

/-- Every version is what its effects made of it, and keys the sequence has not reached are free. -/
structure Traced (Trace : List Effect → Row → Prop) (table : Table Tx Row Effect) : Prop where
  committed : ∀ {key row}, table.committed key = some row → Trace (table.history key) row
  missing : ∀ {key}, table.committed key = none → table.history key = []
  draft : ∀ {key draft}, table.draft key = some draft →
    Trace (table.history key ++ draft.effects) draft.row
  fresh : ∀ {key}, table.nextId ≤ key → table.committed key = none ∧ table.draft key = none

variable {Trace : List Effect → Row → Prop}

omit [DecidableEq Tx] in
theorem traced_empty : Traced Trace (Table.empty : Table Tx Row Effect) where
  committed h := by simp [Table.empty] at h
  missing _ := rfl
  draft h := by simp [Table.empty] at h
  fresh _ := ⟨rfl, rfl⟩

omit [DecidableEq Tx] in
theorem Traced.write (htraced : Traced Trace table) {key nextId : Nat}
    {draft : Draft Tx Row Effect} (htrace : Trace (table.history key ++ draft.effects) draft.row)
    (hkey : key < nextId) (hnext : table.nextId ≤ nextId) :
    Traced Trace { table.write key draft with nextId := nextId } where
  committed h := htraced.committed h
  missing h := htraced.missing h
  draft {other _} h := by
    rcases Table.draft_write_cases h with ⟨rfl, rfl⟩ | ⟨-, hold⟩
    · exact htrace
    · exact htraced.draft hold
  fresh {other} h := by
    obtain ⟨hcommitted, hdraft⟩ := htraced.fresh (hnext.trans h)
    have hother : other ≠ key := by
      simp only at h
      omega
    exact ⟨hcommitted, by simpa [Table.write, hother] using hdraft⟩

theorem Traced.commit (htraced : Traced Trace table) (tx : Tx) :
    Traced Trace (table.commit tx) where
  committed {key row} h := by
    rcases table.commit_at tx key with ⟨draft, hdraft, -, hrow, hhistory⟩ | ⟨-, hrow, hhistory⟩
    · rw [hrow] at h
      cases h
      rw [hhistory]
      exact htraced.draft hdraft
    · rw [hhistory]
      exact htraced.committed (hrow ▸ h)
  missing {key} h := by
    rcases table.commit_at tx key with ⟨draft, -, -, hrow, -⟩ | ⟨-, hrow, hhistory⟩
    · simp [hrow] at h
    · rw [hhistory]
      exact htraced.missing (hrow ▸ h)
  draft {key _} h := by
    obtain ⟨hdraft, howner⟩ := Table.draft_commit_cases h
    rcases table.commit_at tx key with ⟨other, hother, hmine, -, -⟩ | ⟨-, -, hhistory⟩
    · rw [hdraft, Option.some.injEq] at hother
      exact absurd (hother ▸ hmine) howner
    · rw [hhistory]
      exact htraced.draft hdraft
  fresh {key} h := by
    obtain ⟨hcommitted, hdraft⟩ : table.committed key = none ∧ table.draft key = none :=
      htraced.fresh h
    exact ⟨by simp [Table.commit, hdraft, hcommitted], by simp [Table.commit, hdraft]⟩

theorem Traced.rollback (htraced : Traced Trace table) (tx : Tx) {nextId : Nat}
    (hnext : table.nextId ≤ nextId) :
    Traced Trace { table.rollback tx with nextId := nextId } where
  committed h := htraced.committed h
  missing h := htraced.missing h
  draft h := htraced.draft (Table.draft_rollback_cases h).1
  fresh {key} h := by
    obtain ⟨hcommitted, hdraft⟩ := htraced.fresh (hnext.trans h)
    exact ⟨hcommitted, by simp [Table.rollback, hdraft]⟩

/-- **The trace rule.** If inserting starts a trace and each update extends it by its own effect,
then after any schedule each committed row is what its committed effects made of it. -/
theorem Reach.traced
    (hinsert : ∀ payload key, Trace [(schema.insert payload key).2] (schema.insert payload key).1)
    (hupdate : ∀ statement effects before row effect, Trace effects before →
      schema.update statement before = some (row, effect) → Trace (effects ++ [effect]) row)
    (hreach : Transition.Reach schema.step Allowed Table.empty table) : Traced Trace table := by
  refine hreach.invariant (Traced Trace) traced_empty fun before action after htraced _ hstep => ?_
  cases schema.step_moves hstep with
  | stay => exact htraced
  | rewrite key draft statement row effect hdraft hrow =>
      have hkey : key < before.nextId := by
        by_contra hge
        simp [(htraced.fresh (not_lt.mp hge)).2] at hdraft
      refine htraced.write ?_ hkey le_rfl
      rw [← List.append_assoc]
      exact hupdate statement _ _ row effect (htraced.draft hdraft) hrow
  | checkout tx key committed statement row effect hdraft hcommitted hrow =>
      have hkey : key < before.nextId := by
        by_contra hge
        simp [(htraced.fresh (not_lt.mp hge)).1] at hcommitted
      exact htraced.write (hupdate statement _ _ row effect (htraced.committed hcommitted) hrow)
        hkey le_rfl
  | insert tx payload row effect hnew _ _ =>
      refine htraced.write ?_ (Nat.lt_succ_self _) (Nat.le_succ _)
      have hhistory := htraced.missing (htraced.fresh (le_refl before.nextId)).1
      have htrace := hinsert payload before.nextId
      rw [hnew] at htrace
      simpa [hhistory] using htrace
  | commit tx => exact htraced.commit tx
  | rollback tx nextId hnext => exact htraced.rollback tx hnext

def Fresh (table : Table Tx Row Effect) : Prop :=
  ∀ key, table.nextId ≤ key → table.committed key = none ∧ table.draft key = none

omit [DecidableEq Tx] in
theorem Fresh.write (h : Fresh table) {key nextId : Nat} {draft : Draft Tx Row Effect}
    (hkey : key < nextId) (hnext : table.nextId ≤ nextId) :
    Fresh { table.write key draft with nextId := nextId } := by
  intro other hother
  obtain ⟨hcommitted, hdraft⟩ := h other (hnext.trans hother)
  exact ⟨hcommitted, by simpa [Table.write, (hkey.trans_le hother).ne'] using hdraft⟩

theorem Fresh.moves (h : Fresh table) (hmoves : schema.Moves table next) : Fresh next := by
  cases hmoves with
  | stay => exact h
  | rewrite key draft statement row effect hdraft hupdate =>
      refine h.write (Nat.lt_of_not_le fun hge => ?_) le_rfl
      simp [(h key hge).2] at hdraft
  | checkout tx key committed statement row effect hdraft hcommitted hupdate =>
      refine h.write (Nat.lt_of_not_le fun hge => ?_) le_rfl
      simp [(h key hge).1] at hcommitted
  | insert => exact h.write (Nat.lt_succ_self _) (Nat.le_succ _)
  | commit tx =>
      intro key hkey
      obtain ⟨hcommitted, hdraft⟩ := h key hkey
      exact ⟨by simp [Table.commit, hdraft, hcommitted], by simp [Table.commit, hdraft]⟩
  | rollback tx nextId hnext =>
      intro key hkey
      obtain ⟨hcommitted, hdraft⟩ := h key (hnext.trans hkey)
      exact ⟨hcommitted, by simp [Table.rollback, hdraft]⟩

/-! ### The partial unique index -/

/-- At most one live row in each group, among the committed rows and among those being written. A
committed row and one being written may share a group only if the writer of the second has already
taken the first out of it. -/
structure Exclusive (schema : Schema Row Effect Update Payload Group)
    (table : Table Tx Row Effect) : Prop where
  committed : ∀ {group key other row otherRow}, table.committed key = some row →
    table.committed other = some otherRow → schema.covers group row →
    schema.covers group otherRow → key = other
  drafts : ∀ {group key other draft otherDraft}, table.draft key = some draft →
    table.draft other = some otherDraft → schema.covers group draft.row →
    schema.covers group otherDraft.row → key = other
  mixed : ∀ {group key other row draft}, table.committed key = some row →
    table.draft other = some draft → schema.covers group row → schema.covers group draft.row →
    key = other ∨ ∃ moved, table.draft key = some moved ∧ moved.owner = draft.owner ∧
      schema.covers group moved.row = false

omit [DecidableEq Tx] in
theorem exclusive_empty : Exclusive schema (Table.empty : Table Tx Row Effect) where
  committed h := by simp [Table.empty] at h
  drafts h := by simp [Table.empty] at h
  mixed h := by simp [Table.empty] at h

theorem covers_iff {group : Group} {row : Row} :
    schema.covers group row = true ↔ schema.live row = true ∧ schema.group row = group := by
  simp [covers]

theorem Exclusive.commit (hexclusive : Exclusive schema table) (tx : Tx) :
    Exclusive schema (table.commit tx) where
  committed {group key other row otherRow} hrow hother hcovers hcoversOther := by
    rcases table.commit_at tx key with ⟨draft, hdraft, hmine, hkey, -⟩ | ⟨hforeign, hkey, -⟩ <;>
    rcases table.commit_at tx other with ⟨draft', hdraft', hmine', hkey', -⟩ | ⟨hforeign', hkey', -⟩
    all_goals
      rw [hkey] at hrow
      rw [hkey'] at hother
    · cases hrow
      cases hother
      exact hexclusive.drafts hdraft hdraft' hcovers hcoversOther
    · cases hrow
      rcases hexclusive.mixed hother hdraft hcoversOther hcovers with
        heq | ⟨moved, hmoved, howner, -⟩
      · exact heq.symm
      · exact absurd (howner.trans hmine) (hforeign' moved hmoved)
    · cases hother
      rcases hexclusive.mixed hrow hdraft' hcovers hcoversOther with
        heq | ⟨moved, hmoved, howner, -⟩
      · exact heq
      · exact absurd (howner.trans hmine') (hforeign moved hmoved)
    · exact hexclusive.committed hrow hother hcovers hcoversOther
  drafts hdraft hother := hexclusive.drafts (Table.draft_commit_cases hdraft).1
    (Table.draft_commit_cases hother).1
  mixed {group key other row draft} hrow hdraft hcovers hcoversDraft := by
    obtain ⟨hdraft, howner⟩ := Table.draft_commit_cases hdraft
    rcases table.commit_at tx key with ⟨written, hwritten, -, hkey, -⟩ | ⟨hforeign, hkey, -⟩
    · rw [hkey] at hrow
      cases hrow
      exact Or.inl (hexclusive.drafts hwritten hdraft hcovers hcoversDraft)
    · rw [hkey] at hrow
      refine (hexclusive.mixed hrow hdraft hcovers hcoversDraft).imp_right ?_
      rintro ⟨moved, hmoved, hsame, hgone⟩
      exact ⟨moved, by simp [Table.commit, hmoved, hsame, howner], hsame, hgone⟩

theorem Exclusive.rollback (hexclusive : Exclusive schema table) (tx : Tx) (nextId : Nat) :
    Exclusive schema { table.rollback tx with nextId := nextId } where
  committed := hexclusive.committed
  drafts hdraft hother := hexclusive.drafts (Table.draft_rollback_cases hdraft).1
    (Table.draft_rollback_cases hother).1
  mixed hrow hdraft hcovers hcoversDraft := by
    obtain ⟨hdraft, howner⟩ := Table.draft_rollback_cases hdraft
    refine (hexclusive.mixed hrow hdraft hcovers hcoversDraft).imp_right ?_
    rintro ⟨moved, hmoved, hsame, hgone⟩
    exact ⟨moved, by simp [Table.rollback, hmoved, hsame, howner], hsame, hgone⟩

omit [DecidableEq Tx] in
/-- Writing a version keeps the index: it suffices that no other version of the group is in reach,
and that a version already being written stays out of the groups it has left. -/
theorem Exclusive.write (hexclusive : Exclusive schema table) {key nextId : Nat}
    {draft : Draft Tx Row Effect}
    (hdrafts : ∀ {group other otherDraft}, table.draft other = some otherDraft → other ≠ key →
      schema.covers group draft.row → schema.covers group otherDraft.row = false)
    (hcommitted : ∀ {group other row}, table.committed other = some row → other ≠ key →
      schema.covers group draft.row → schema.covers group row →
      ∃ moved, table.draft other = some moved ∧ moved.owner = draft.owner ∧
        schema.covers group moved.row = false)
    (hstays : ∀ {moved}, table.draft key = some moved → moved.owner = draft.owner ∧
      ∀ {group}, schema.covers group moved.row = false → schema.covers group draft.row = false) :
    Exclusive schema { table.write key draft with nextId := nextId } where
  committed := hexclusive.committed
  drafts {group first second firstDraft secondDraft} hfirst hsecond hcovers hcoversOther := by
    rcases Table.draft_write_cases hfirst with ⟨rfl, rfl⟩ | ⟨hne, hold⟩ <;>
    rcases Table.draft_write_cases hsecond with ⟨rfl, rfl⟩ | ⟨hne', hold'⟩
    · rfl
    · simp [hdrafts hold' hne' hcovers] at hcoversOther
    · simp [hdrafts hold hne hcoversOther] at hcovers
    · exact hexclusive.drafts hold hold' hcovers hcoversOther
  mixed {group first second row other} hrow hdraft hcovers hcoversDraft := by
    have hkeeps : ∀ {owner}, (∃ moved, table.draft first = some moved ∧ moved.owner = owner ∧
        schema.covers group moved.row = false) →
        ∃ moved, (table.write key draft).draft first = some moved ∧ moved.owner = owner ∧
          schema.covers group moved.row = false := by
      rintro owner ⟨moved, hmoved, rfl, hgone⟩
      by_cases hkey : first = key
      · subst hkey
        exact ⟨draft, by simp [Table.write], (hstays hmoved).1.symm, (hstays hmoved).2 hgone⟩
      · exact ⟨moved, by simp [Table.write, hkey, hmoved], rfl, hgone⟩
    rcases Table.draft_write_cases hdraft with ⟨rfl, rfl⟩ | ⟨-, hold⟩
    · by_cases hkey : first = second
      · exact Or.inl hkey
      · exact Or.inr (hkeeps (hcommitted hrow hkey hcoversDraft hcovers))
    · exact (hexclusive.mixed hrow hold hcovers hcoversDraft).imp_right hkeeps

/-- No move breaks the index, if no update brings a row to life or moves it to another group. -/
theorem Exclusive.moves (hexclusive : Exclusive schema table)
    (hstays : ∀ statement before row effect, schema.update statement before = some (row, effect) →
      (schema.live row = true → schema.live before = true) ∧
        schema.group row = schema.group before)
    (hfresh : ∀ {key}, table.nextId ≤ key →
      table.committed key = none ∧ table.draft key = none)
    (hmoves : schema.Moves table next) : Exclusive schema next := by
  have hcovers : ∀ {statement before row effect group},
      schema.update statement before = some (row, effect) → schema.covers group row = true →
      schema.covers group before = true := by
    intro statement before row effect group hupdate hrow
    obtain ⟨hlive, hgroup⟩ := hstays statement before row effect hupdate
    rw [covers_iff] at hrow ⊢
    exact ⟨hlive hrow.1, hgroup ▸ hrow.2⟩
  cases hmoves with
  | stay => exact hexclusive
  | rewrite key draft statement row effect hdraft hupdate =>
      refine hexclusive.write ?_ ?_ ?_
      · intro group other otherDraft hother hne hrow
        by_contra hcoversOther
        exact hne (hexclusive.drafts hother hdraft (by simpa using hcoversOther)
          (hcovers hupdate hrow))
      · intro group other otherRow hother hne hrow hcoversOther
        exact (hexclusive.mixed hother hdraft hcoversOther (hcovers hupdate hrow)).resolve_left hne
      · intro moved hmoved
        rw [hdraft, Option.some.injEq] at hmoved
        subst hmoved
        refine ⟨rfl, fun hgone => ?_⟩
        by_contra hrow
        simp [hcovers hupdate (by simpa using hrow)] at hgone
  | checkout tx key committed statement row effect hdraft hcommitted hupdate =>
      refine hexclusive.write ?_ ?_ ?_
      · intro group other otherDraft hother hne hrow
        by_contra hcoversOther
        rcases hexclusive.mixed hcommitted hother (hcovers hupdate hrow)
          (by simpa using hcoversOther) with heq | ⟨moved, hmoved, -, -⟩
        · exact hne heq.symm
        · simp [hdraft] at hmoved
      · intro group other otherRow hother hne hrow hcoversOther
        exact absurd (hexclusive.committed hother hcommitted hcoversOther (hcovers hupdate hrow)) hne
      · intro moved hmoved
        simp [hdraft] at hmoved
  | insert tx payload row effect hnew hdoubt hfree =>
      have hbelow : ∀ {key}, (table.committed key).isSome ∨ (table.draft key).isSome →
          key < table.nextId := by
        intro key hsome
        by_contra hge
        simp [hfresh (not_lt.mp hge)] at hsome
      refine hexclusive.write ?_ ?_ ?_
      · intro group other otherDraft hother hne hrow
        obtain ⟨-, rfl⟩ := covers_iff.mp hrow
        have hlt : other < table.nextId := hbelow (Or.inr (by simp [hother]))
        have hseen := hfree other hlt
        have hclear := hdoubt other hlt
        by_cases howner : otherDraft.owner = tx
        · simpa [conflicts, Table.view, hother, howner] using hseen
        · simp [inDoubt, hother, howner] at hclear
          exact hclear.1
      · intro group other otherRow hother hne hrow hcoversOther
        obtain ⟨-, rfl⟩ := covers_iff.mp hrow
        have hlt : other < table.nextId := hbelow (Or.inl (by simp [hother]))
        have hseen := hfree other hlt
        have hclear := hdoubt other hlt
        cases hdraft : table.draft other with
        | none => simp [conflicts, Table.view, hdraft, hother, hcoversOther] at hseen
        | some moved =>
            by_cases howner : moved.owner = tx
            · exact ⟨moved, rfl, howner, by simpa [conflicts, Table.view, hdraft, howner] using hseen⟩
            · simp [inDoubt, hdraft, howner, hother, hcoversOther] at hclear
      · intro moved hmoved
        simp [(hfresh (le_refl table.nextId)).2] at hmoved
  | commit tx => exact hexclusive.commit tx
  | rollback tx nextId _ => exact hexclusive.rollback tx nextId

/-- A table with its index, whatever rows it has started with. -/
structure Indexed (schema : Schema Row Effect Update Payload Group) (table : Table Tx Row Effect) :
    Prop where
  fresh : Fresh table
  exclusive : Exclusive schema table

theorem Indexed.moves (h : Indexed schema table)
    (hstays : ∀ statement before row effect, schema.update statement before = some (row, effect) →
      (schema.live row = true → schema.live before = true) ∧
        schema.group row = schema.group before)
    (hmoves : schema.Moves table next) : Indexed schema next :=
  ⟨h.fresh.moves hmoves, h.exclusive.moves hstays (fun hkey => h.fresh _ hkey) hmoves⟩

omit [DecidableEq Tx] in
theorem Indexed.skip (h : Indexed schema table) {nextId : Nat} (hnext : table.nextId ≤ nextId) :
    Indexed schema { table with nextId := nextId } where
  fresh key hkey := h.fresh key (hnext.trans hkey)
  exclusive := ⟨h.exclusive.committed, h.exclusive.drafts, h.exclusive.mixed⟩

/-- **The index rule.** If no update brings a row to life or moves it to another group, at most one
committed row of a group is live, after any schedule. -/
theorem Reach.exclusive
    (hstays : ∀ statement before row effect, schema.update statement before = some (row, effect) →
      (schema.live row = true → schema.live before = true) ∧
        schema.group row = schema.group before)
    (hfresh : ∀ {table}, Transition.Reach schema.step Allowed Table.empty table →
      ∀ {key}, table.nextId ≤ key → table.committed key = none ∧ table.draft key = none)
    (hreach : Transition.Reach schema.step Allowed Table.empty table) :
    Exclusive schema table :=
  hreach.invariant_with (Exclusive schema) hfresh exclusive_empty
    fun _ _ _ hfresh hexclusive _ hstep => hexclusive.moves hstays hfresh (schema.step_moves hstep)

/-- What holds of the committed rows holds of what each transaction sees. -/
theorem Exclusive.view (hexclusive : Exclusive schema table) {tx : Tx} {group : Group}
    {key other : Nat} {row otherRow : Row} (hrow : table.view tx key = some row)
    (hother : table.view tx other = some otherRow) (hcovers : schema.covers group row)
    (hcoversOther : schema.covers group otherRow) : key = other := by
  rcases table.view_cases hrow with ⟨draft, hdraft, hmine, rfl⟩ | ⟨hforeign, hcommitted⟩ <;>
  rcases table.view_cases hother with ⟨draft', hdraft', hmine', rfl⟩ | ⟨hforeign', hcommitted'⟩
  · exact hexclusive.drafts hdraft hdraft' hcovers hcoversOther
  · rcases hexclusive.mixed hcommitted' hdraft hcoversOther hcovers with
      heq | ⟨moved, hmoved, howner, -⟩
    · exact heq.symm
    · exact absurd (howner.trans hmine) (hforeign' moved hmoved)
  · rcases hexclusive.mixed hcommitted hdraft' hcovers hcoversOther with
      heq | ⟨moved, hmoved, howner, -⟩
    · exact heq
    · exact absurd (howner.trans hmine') (hforeign moved hmoved)
  · exact hexclusive.committed hcommitted hcommitted' hcovers hcoversOther

end Schema
end Versioned
