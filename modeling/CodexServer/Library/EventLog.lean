import Mathlib

/-!
# Append-only logs with increasing ids

A log gives each entry an id above all earlier ones. Readers keep the id of the last entry they have
seen; the rules below say what is left after a cursor, that appending only adds at the far end of
what is left, and that a reader who moves to the entry it has just seen keeps its place.
-/

variable {Id Entry : Type} [LinearOrder Id] [OrderBot Id]

/-- Entries in the order of their ids, all of them above the bottom id. -/
structure EventLog (Id Entry : Type) [LinearOrder Id] [OrderBot Id] where
  entries : List (Id × Entry)
  sorted : entries.Pairwise fun first second => first.1 < second.1
  above : ∀ entry ∈ entries, ⊥ < entry.1

namespace EventLog

def empty : EventLog Id Entry where
  entries := []
  sorted := .nil
  above := by simp

/-- Ids a new entry may take. -/
def Admits (log : EventLog Id Entry) (id : Id) : Prop :=
  ⊥ < id ∧ ∀ entry ∈ log.entries, entry.1 < id

instance (log : EventLog Id Entry) (id : Id) : Decidable (log.Admits id) :=
  inferInstanceAs (Decidable (_ ∧ _))

def append (log : EventLog Id Entry) (id : Id) (entry : Entry) (hid : log.Admits id) :
    EventLog Id Entry where
  entries := log.entries ++ [(id, entry)]
  sorted := List.pairwise_append.mpr ⟨log.sorted, List.pairwise_singleton _ _, by
    simpa using fun earlier old hmem => hid.2 (earlier, old) hmem⟩
  above := by
    intro new hnew
    rcases List.mem_append.mp hnew with hold | hlast
    · exact log.above new hold
    · rw [List.mem_singleton.mp hlast]
      exact hid.1

/-- What is left to read after a cursor. -/
def after (log : EventLog Id Entry) (cursor : Id) : List (Id × Entry) :=
  log.entries.filter fun entry => cursor < entry.1

variable {log : EventLog Id Entry} {id cursor : Id} {entry : Entry}

@[simp]
theorem after_bot : log.after ⊥ = log.entries := by
  simpa [after] using fun id entry hmem => log.above (id, entry) hmem

theorem sorted_after (log : EventLog Id Entry) (cursor : Id) :
    (log.after cursor).Pairwise fun first second => first.1 < second.1 :=
  log.sorted.filter _

theorem mem_after {read : Id × Entry} : read ∈ log.after cursor ↔
    read ∈ log.entries ∧ cursor < read.1 := by
  simp [after]

/-- A new entry goes to the far end of what each reader has left. -/
theorem after_append (hid : log.Admits id) (hcursor : cursor < id) :
    (log.append id entry hid).after cursor = log.after cursor ++ [(id, entry)] := by
  simp [after, append, hcursor]

/-- A cursor that is an entry of the log, or the bottom, is below every new id. -/
theorem Admits.cursor_lt (hid : log.Admits id)
    (hcursor : cursor = ⊥ ∨ ∃ entry, (cursor, entry) ∈ log.entries) : cursor < id := by
  rcases hcursor with rfl | ⟨entry, hmem⟩
  · exact hid.1
  · exact hid.2 _ hmem

/-- Moving the cursor to the next entry takes exactly this entry off what is left. -/
theorem after_of_after_cons {rest : List (Id × Entry)}
    (h : log.after cursor = (id, entry) :: rest) : log.after id = rest := by
  have hmem : ∀ read ∈ log.entries, id < read.1 → cursor < read.1 := by
    intro read _ hlt
    have hcursor : cursor < id := (mem_after.mp (h ▸ List.mem_cons_self)).2
    exact hcursor.trans hlt
  have hfilter : log.after id = (log.after cursor).filter fun read => id < read.1 := by
    unfold after
    rw [List.filter_filter]
    refine List.filter_congr fun read hread => ?_
    simpa using hmem read hread
  have hsorted := log.sorted_after cursor
  rw [h] at hsorted
  have hrest := (List.pairwise_cons.mp hsorted).1
  rw [hfilter, h]
  simpa [List.filter_cons] using fun laterId later hlater => hrest (laterId, later) hlater

theorem after_of_after_append {first rest : List (Id × Entry)}
    (h : log.after cursor = first ++ (id, entry) :: rest) : log.after id = rest := by
  induction first generalizing cursor with
  | nil => exact after_of_after_cons h
  | cons head first ih => exact ih (after_of_after_cons h)

end EventLog
