import Mathlib.Data.List.Basic
import CodexServer.Library.Versioned

/-!
# Notices about committed effects

Effects on a row are worth a notice to others, once they are committed. What is due at a row is read
off its history; a transaction owes the notices of its drafts, and its commit makes them due.
-/

namespace Versioned

variable {Tx Row Effect Notice : Type} [DecidableEq Tx]

section

variable (notice : Nat → Row → Effect → Option Notice) (table : Table Tx Row Effect)

/-- The notices of what is committed at a row. -/
def Table.due (key : Nat) : List Notice :=
  (table.committed key).elim [] fun row => (table.history key).filterMap (notice key row)

/-- The notices of what a transaction has done to a row. -/
def Table.owed (tx : Tx) (key : Nat) : List Notice :=
  ((table.draft key).filter fun draft => draft.owner = tx).elim [] fun draft =>
    draft.effects.filterMap (notice key draft.row)

/-- A draft is a version of the row it stands over, and its notices are about that row; keys the
sequence has not reached are free. -/
structure Noticed : Prop where
  draft : ∀ {key draft row}, table.draft key = some draft → table.committed key = some row →
    notice key draft.row = notice key row
  missing : ∀ {key}, table.committed key = none → table.history key = []
  fresh : ∀ {key}, table.nextId ≤ key → table.committed key = none ∧ table.draft key = none

end

variable {notice : Nat → Row → Effect → Option Notice} {table : Table Tx Row Effect} {tx other : Tx}
  {key : Nat} {draft : Draft Tx Row Effect}

omit [DecidableEq Tx] in
theorem noticed_empty : Noticed notice (Table.empty : Table Tx Row Effect) where
  draft h := by cases h
  missing _ := rfl
  fresh _ := ⟨rfl, rfl⟩

/-! ### What is owed after a step -/

@[simp]
theorem owed_empty : (Table.empty : Table Tx Row Effect).owed notice tx key = [] := rfl

omit [DecidableEq Tx] in
@[simp]
theorem due_empty : (Table.empty : Table Tx Row Effect).due notice key = [] := rfl

theorem owed_write_self (nextId : Nat) :
    ({ table.write key draft with nextId := nextId } : Table Tx Row Effect).owed notice tx key =
      if draft.owner = tx then draft.effects.filterMap (notice key draft.row) else [] := by
  by_cases howner : draft.owner = tx <;> simp [Table.owed, Table.write, Option.filter, howner]

theorem owed_write_of_ne {position : Nat} (hne : position ≠ key) (nextId : Nat) :
    ({ table.write key draft with nextId := nextId } : Table Tx Row Effect).owed notice tx position =
      table.owed notice tx position := by
  simp [Table.owed, Table.write, hne]

@[simp]
theorem owed_rollback_self (nextId : Nat) :
    ({ table.rollback tx with nextId := nextId } : Table Tx Row Effect).owed notice tx key = [] := by
  simp only [Table.owed, Table.rollback]
  cases hdraft : table.draft key with
  | none => rfl
  | some draft => by_cases howner : draft.owner = tx <;> simp [Option.filter, howner]

theorem owed_rollback_of_ne (hne : other ≠ tx) (nextId : Nat) :
    ({ table.rollback tx with nextId := nextId } : Table Tx Row Effect).owed notice other key =
      table.owed notice other key := by
  simp only [Table.owed, Table.rollback]
  cases hdraft : table.draft key with
  | none => rfl
  | some draft =>
      by_cases howner : draft.owner = tx
      · simp [Option.filter, howner, hne.symm]
      · simp [Option.filter, howner]

@[simp]
theorem owed_commit_self : (table.commit tx).owed notice tx key = [] :=
  owed_rollback_self table.nextId

theorem owed_commit_of_ne (hne : other ≠ tx) :
    (table.commit tx).owed notice other key = table.owed notice other key :=
  owed_rollback_of_ne hne table.nextId

/-- **The commit rule.** What the transaction owed is due, after what was due before. -/
theorem due_commit (h : Noticed notice table) :
    (table.commit tx).due notice key = table.due notice key ++ table.owed notice tx key := by
  rcases table.commit_at tx key with ⟨draft, hdraft, howner, hrow, hhistory⟩ |
    ⟨hforeign, hrow, hhistory⟩
  · simp only [Table.due, Table.owed, hrow, hhistory, hdraft, Option.elim_some, Option.filter,
      howner, decide_true, if_true, List.filterMap_append]
    congr 1
    cases hcommitted : table.committed key with
    | none => simp [h.missing hcommitted]
    | some row => simp [h.draft hdraft hcommitted]
  · have howed : table.owed notice tx key = [] := by
      unfold Table.owed
      cases hdraft : table.draft key with
      | none => rfl
      | some draft => simp [Option.filter, hforeign draft hdraft]
    simp only [Table.due, howed, hrow, hhistory, List.append_nil]

/-! ### Steps -/

omit [DecidableEq Tx] in
theorem Noticed.write (h : Noticed notice table) {nextId : Nat}
    (hsame : ∀ row, table.committed key = some row → notice key draft.row = notice key row)
    (hkey : key < nextId) (hnext : table.nextId ≤ nextId) :
    Noticed notice { table.write key draft with nextId := nextId } where
  draft {position _ _} hdraft hcommitted := by
    rcases Table.draft_write_cases hdraft with ⟨rfl, rfl⟩ | ⟨_, hold⟩
    · exact hsame _ hcommitted
    · exact h.draft hold hcommitted
  missing := h.missing
  fresh {position} hposition := by
    obtain ⟨hcommitted, hfree⟩ := h.fresh (hnext.trans hposition)
    have hne : position ≠ key := by
      simp only at hposition
      omega
    exact ⟨hcommitted, by simpa [Table.write, hne] using hfree⟩

theorem Noticed.rollback (h : Noticed notice table) (tx : Tx) {nextId : Nat}
    (hnext : table.nextId ≤ nextId) :
    Noticed notice { table.rollback tx with nextId := nextId } where
  draft hdraft hcommitted := h.draft (Table.draft_rollback_cases hdraft).1 hcommitted
  missing := h.missing
  fresh {position} hposition := by
    obtain ⟨hcommitted, hfree⟩ := h.fresh (hnext.trans hposition)
    exact ⟨hcommitted, by simp [Table.rollback, hfree]⟩

theorem Noticed.commit (h : Noticed notice table) (tx : Tx) : Noticed notice (table.commit tx) where
  draft {key _ _} hdraft hcommitted := by
    obtain ⟨hdraft, howner⟩ := Table.draft_commit_cases hdraft
    rcases table.commit_at tx key with ⟨other, hother, hmine, _, _⟩ | ⟨_, hrow, _⟩
    · rw [hdraft, Option.some.injEq] at hother
      exact absurd (hother ▸ hmine) howner
    · exact h.draft hdraft (hrow ▸ hcommitted)
  missing {key} hcommitted := by
    rcases table.commit_at tx key with ⟨draft, _, _, hrow, _⟩ | ⟨_, hrow, hhistory⟩
    · simp [hrow] at hcommitted
    · rw [hhistory]
      exact h.missing (hrow ▸ hcommitted)
  fresh {key} hkey := by
    obtain ⟨hcommitted, hfree⟩ : table.committed key = none ∧ table.draft key = none :=
      h.fresh hkey
    exact ⟨by simp [Table.commit, hfree, hcommitted], by simp [Table.commit, hfree]⟩

end Versioned
