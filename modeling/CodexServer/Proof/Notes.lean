import CodexServer.Notes
import CodexServer.Library.Noninterference

/-!
# Isolated notes

A call does to the rows of its user what it would do if there were no others, and nothing to the rows
of anybody else. What a user is answered is then the same in any two runs with the same calls of his.
-/

open Noninterference

namespace CodexServer.Notes

variable {ρ : Type} {database : Database ρ} {state next : State} {user userId : Nat}
  {supplied : Supplied}

/-! ### The rows of one user -/

def State.restrict (user : Nat) (state : State) : State where
  notebooks other kind := if other = user then state.notebooks other kind else none
  notes := state.notes.filter fun note => note.userId = user
  unique := state.unique.sublist (List.filter_sublist.map _)

@[simp] theorem restrict_notebooks (kind : NotebookKind) :
    (state.restrict user).notebooks user kind = state.notebooks user kind :=
  if_pos rfl

@[simp] theorem restrict_notes :
    (state.restrict user).notes = state.notes.filter fun note => note.userId = user := rfl

theorem restrict_insertNotebook {notebook : Notebook} (h : notebook.userId = user) :
    (state.insertNotebook notebook).restrict user =
      (state.restrict user).insertNotebook notebook := by
  subst h
  ext1
  · funext other kind
    by_cases hother : other = notebook.userId
    · subst hother
      simp [State.restrict, State.insertNotebook]
    · simp [State.restrict, State.insertNotebook, hother]
  · rfl

theorem restrict_insertNotebook_other {notebook : Notebook} (h : notebook.userId ≠ user) :
    (state.insertNotebook notebook).restrict user = state.restrict user := by
  ext1
  · funext other kind
    by_cases hother : other = user
    · subst hother
      simp [State.restrict, State.insertNotebook, h.symm]
    · simp [State.restrict, hother]
  · rfl

theorem restrict_insertNote {note : Note} (h : note.userId = user)
    (hinsert : state.insertNote note = some next) :
    (state.restrict user).insertNote note = some (next.restrict user) := by
  unfold State.insertNote at hinsert ⊢
  split at hinsert
  · next hfresh =>
      cases hinsert
      have hstill : note.id ∉ (state.restrict user).notes.map Note.id := fun hmem =>
        hfresh ((List.filter_sublist.map _).subset hmem)
      rw [dif_pos hstill]
      congr 1
      ext1
      · rfl
      · simp [State.restrict, h]
  · cases hinsert

theorem restrict_insertNote_other {note : Note} (h : note.userId ≠ user)
    (hinsert : state.insertNote note = some next) : next.restrict user = state.restrict user := by
  unfold State.insertNote at hinsert
  split at hinsert
  · cases hinsert
    ext1
    · rfl
    · simp [State.restrict, h]
  · cases hinsert

/-- A row with the id of a note is the note. -/
theorem State.eq_of_id {note row : Note} (hnote : note ∈ state.notes) (hrow : row ∈ state.notes)
    (h : row.id = note.id) : row = note :=
  List.inj_on_of_nodup_map state.unique hrow hnote h

/-- The owner of a row does not change. -/
theorem put_userId {note found row : Note} (hfound : found ∈ state.notes) (hid : note.id = found.id)
    (huser : note.userId = found.userId) (hrow : row ∈ state.notes) :
    (State.put note row).userId = row.userId := by
  unfold State.put
  split
  · next heq => rw [huser, State.eq_of_id hfound hrow (heq.trans hid)]
  · rfl

theorem restrict_updateNote {note found : Note} (hfound : found ∈ state.notes)
    (hid : note.id = found.id) (huser : note.userId = found.userId) :
    (state.updateNote note).restrict user = (state.restrict user).updateNote note := by
  ext1
  · rfl
  · simp only [State.restrict, State.updateNote, List.filter_map]
    congr 1
    refine List.filter_congr fun row hrow => ?_
    simp [put_userId hfound hid huser hrow]

theorem restrict_updateNote_other {note found : Note} (hfound : found ∈ state.notes)
    (hid : note.id = found.id) (huser : note.userId = found.userId) (h : note.userId ≠ user) :
    (state.updateNote note).restrict user = state.restrict user := by
  rw [restrict_updateNote hfound hid huser]
  ext1
  · rfl
  · refine (List.map_congr_left fun row hrow => ?_).trans (List.map_id _)
    obtain ⟨hmem, hown⟩ := List.mem_filter.mp hrow
    refine if_neg fun heq => h ?_
    rw [huser, ← State.eq_of_id hfound hmem (heq.trans hid)]
    exact of_decide_eq_true hown

theorem restrict_deleteNote (noteId : Nat) :
    (state.deleteNote noteId).restrict user = (state.restrict user).deleteNote noteId := by
  ext1
  · rfl
  · simp [State.restrict, State.deleteNote, List.filter_filter, Bool.and_comm]

theorem restrict_deleteNote_other {found : Note} (hfound : found ∈ state.notes)
    (h : found.userId ≠ user) :
    (state.deleteNote found.id).restrict user = state.restrict user := by
  rw [restrict_deleteNote]
  ext1
  · rfl
  · refine List.filter_eq_self.mpr fun row hrow => ?_
    obtain ⟨hmem, hown⟩ := List.mem_filter.mp hrow
    refine decide_eq_true fun heq => h ?_
    rw [← State.eq_of_id hfound hmem heq]
    exact of_decide_eq_true hown

/-! ### What a call does with its user's rows -/

theorem defaultNotebook_restrict :
    defaultNotebook (state.restrict user) user supplied =
      ((defaultNotebook state user supplied).1,
        (defaultNotebook state user supplied).2.restrict user) := by
  unfold defaultNotebook
  rw [restrict_notebooks]
  cases state.notebooks user .personal with
  | some notebook => rfl
  | none => exact congrArg _ (restrict_insertNotebook rfl).symm

theorem defaultNotebook_other (h : userId ≠ user) :
    (defaultNotebook state userId supplied).2.restrict user = state.restrict user := by
  unfold defaultNotebook
  cases state.notebooks userId .personal with
  | some notebook => rfl
  | none => exact restrict_insertNotebook_other h

theorem get_restrict (noteId : Nat) :
    get (state.restrict user) user supplied noteId =
      ((get state user supplied noteId).1, (get state user supplied noteId).2.restrict user) := by
  unfold get
  rw [defaultNotebook_restrict]
  simp only [restrict_notes, List.find?_filter, Prod.mk.injEq, and_true]
  congr 1
  funext note
  by_cases howner : note.userId = user <;> simp [howner]

theorem get_state (noteId : Nat) :
    (get state userId supplied noteId).2 = (defaultNotebook state userId supplied).2 := rfl

theorem get_some {noteId : Nat} {note : Note} (h : (get state userId supplied noteId).1 = some note) :
    note ∈ (get state userId supplied noteId).2.notes ∧ note.userId = userId := by
  have hfound := List.find?_some h
  simp only [Bool.and_eq_true, decide_eq_true_eq] at hfound
  exact ⟨List.mem_of_find?_eq_some h, hfound.1.2⟩

/-- A revised note has its id and its owner. -/
theorem revise_same (note : Note) (title body : String) (tags : List String) (now : Nat) :
    (revise note title body tags now).id = note.id ∧
      (revise note title body tags now).userId = note.userId := by
  unfold revise
  split <;> exact ⟨rfl, rfl⟩

theorem upsert_restrict {noteId : Option Nat} {title body : String} {tags : List String}
    {result : Result ρ}
    (h : upsert state user supplied noteId title body tags = some (result, next)) :
    upsert (state.restrict user) user supplied noteId title body tags =
      some (result, next.restrict user) := by
  unfold upsert at h ⊢
  rw [defaultNotebook_restrict]
  cases noteId with
  | none =>
      obtain ⟨later, hinsert, heq⟩ := Option.map_eq_some_iff.mp h
      cases heq
      exact Option.map_eq_some_iff.mpr ⟨_, restrict_insertNote rfl hinsert, rfl⟩
  | some noteId =>
      simp only [get_restrict] at h ⊢
      cases hfound : (get (defaultNotebook state user supplied).2 user supplied noteId).1 with
      | none =>
          simp only [hfound] at h ⊢
          cases h
          rfl
      | some note =>
          simp only [hfound] at h ⊢
          cases h
          obtain ⟨hid, huser⟩ := revise_same note title body tags supplied.now
          rw [restrict_updateNote (get_some hfound).1 hid huser]

theorem upsert_other {noteId : Option Nat} {title body : String} {tags : List String}
    {result : Result ρ} (hother : userId ≠ user)
    (h : upsert state userId supplied noteId title body tags = some (result, next)) :
    next.restrict user = state.restrict user := by
  have hnotebook : (defaultNotebook state userId supplied).2.restrict user = state.restrict user :=
    defaultNotebook_other hother
  unfold upsert at h
  cases noteId with
  | none =>
      obtain ⟨later, hinsert, heq⟩ := Option.map_eq_some_iff.mp h
      cases heq
      exact (restrict_insertNote_other hother hinsert).trans hnotebook
  | some noteId =>
      have hget : (get (defaultNotebook state userId supplied).2 userId supplied noteId).2.restrict
          user = state.restrict user := by
        rw [get_state, defaultNotebook_other hother, hnotebook]
      cases hfound : (get (defaultNotebook state userId supplied).2 userId supplied noteId).1 with
      | none =>
          simp only [hfound] at h
          cases h
          exact hget
      | some note =>
          simp only [hfound] at h
          cases h
          obtain ⟨hid, huser⟩ := revise_same note title body tags supplied.now
          obtain ⟨hmem, howner⟩ := get_some hfound
          rw [restrict_updateNote_other hmem hid huser, hget]
          rwa [huser, howner]

/-- The rows that `list` and `search` read are the same without the others'. -/
theorem rows_restrict (notebookId : Nat) (tags : Option (List String)) :
    ((state.restrict user).notes.filter fun note =>
      note.userId = user && note.notebookId = notebookId && tagged tags note) =
    state.notes.filter fun note =>
      note.userId = user && note.notebookId = notebookId && tagged tags note := by
  rw [restrict_notes, List.filter_filter]
  refine List.filter_congr fun note _ => ?_
  by_cases howner : note.userId = user <;> simp [howner]

theorem delete_restrict (noteId : Nat) :
    delete (state.restrict user) user supplied noteId =
      ((delete state user supplied noteId).1, (delete state user supplied noteId).2.restrict user) := by
  unfold delete
  rw [get_restrict]
  cases hfound : (get state user supplied noteId).1 with
  | none => simp only [hfound]
  | some note => simp only [hfound, restrict_deleteNote]

theorem delete_other {noteId : Nat} (h : userId ≠ user) :
    (delete state userId supplied noteId).2.restrict user = state.restrict user := by
  have hget : (get state userId supplied noteId).2.restrict user = state.restrict user :=
    defaultNotebook_other h
  unfold delete
  cases hfound : (get state userId supplied noteId).1 with
  | none =>
      simp only [hfound]
      exact hget
  | some note =>
      simp only [hfound]
      obtain ⟨hmem, howner⟩ := get_some hfound
      exact (restrict_deleteNote_other hmem (howner ▸ h)).trans hget

theorem execute_restrict {operation : Operation} {result : Result ρ}
    (h : execute database state user supplied operation = some (result, next)) :
    execute database (state.restrict user) user supplied operation =
      some (result, next.restrict user) := by
  cases operation with
  | get noteId =>
      cases h
      simp only [execute, get_restrict]
  | upsert noteId title body tags => exact upsert_restrict h
  | list tags limit offset =>
      cases h
      simp only [execute, list, defaultNotebook_restrict, rows_restrict]
  | search query tags limit offset =>
      cases h
      simp only [execute, search, defaultNotebook_restrict, rows_restrict]
  | delete noteId =>
      cases h
      simp only [execute, delete_restrict]
  | defaultNotebook =>
      cases h
      simp only [execute, defaultNotebook_restrict]

theorem execute_other {operation : Operation} {result : Result ρ} (hother : userId ≠ user)
    (h : execute database state userId supplied operation = some (result, next)) :
    next.restrict user = state.restrict user := by
  cases operation with
  | get noteId =>
      cases h
      exact defaultNotebook_other hother
  | upsert noteId title body tags => exact upsert_other hother h
  | list tags limit offset =>
      cases h
      exact defaultNotebook_other hother
  | search query tags limit offset =>
      cases h
      exact defaultNotebook_other hother
  | delete noteId =>
      cases h
      exact delete_other hother
  | defaultNotebook =>
      cases h
      exact defaultNotebook_other hother

/-! ### Calls -/

theorem call_restrict {request : Call} {response : Response ρ} (huser : request.userId = user)
    (h : call database state request = some (response, next)) :
    call database (state.restrict user) request = some (response, next.restrict user) := by
  subst huser
  obtain ⟨⟨result, later⟩, hexecute, heq⟩ := Option.map_eq_some_iff.mp h
  cases heq
  refine Option.map_eq_some_iff.mpr ⟨_, execute_restrict hexecute, ?_⟩
  split <;> rfl

theorem call_other {request : Call} {response : Response ρ} (hother : request.userId ≠ user)
    (h : call database state request = some (response, next)) :
    next.restrict user = state.restrict user := by
  obtain ⟨⟨result, later⟩, hexecute, heq⟩ := Option.map_eq_some_iff.mp h
  cases heq
  split
  · exact execute_other hother hexecute
  · rfl

theorem unwinds (user : Nat) :
    Unwinds (call database) (fun request => request.userId = user) (State.restrict user) where
  respects hother h := call_other (of_decide_eq_false hother) h
  consistent := by
    intro state other request answer reply next later hmine hsame h hagain
    have hfirst := call_restrict (of_decide_eq_true hmine) h
    have hsecond := call_restrict (of_decide_eq_true hmine) hagain
    rw [hsame, hsecond] at hfirst
    obtain ⟨hanswer, hstate⟩ := Prod.mk.inj (Option.some.inj hfirst)
    exact ⟨hanswer.symm, hstate.symm⟩

/-- **Notes are isolated.** A user is answered the same in two runs with the same calls of his; the
calls of the others leave his rows as they are and are answered from their own alone. -/
theorem notes_isolated (database : Database ρ) (user : Nat) {start other last final : State}
    {one two : List Call} {given replies : List (Call × Response ρ)}
    (hstart : start.restrict user = other.restrict user)
    (hsame : one.filter (fun request => request.userId = user) =
      two.filter fun request => request.userId = user)
    (hone : answers (call database) start one = some (given, last))
    (htwo : answers (call database) other two = some (replies, final)) :
    ownAnswers (fun request => request.userId = user) given =
        ownAnswers (fun request => request.userId = user) replies ∧
      ∀ (state next : State) (request : Call) (response : Response ρ), request.userId ≠ user →
        call database state request = some (response, next) →
          next.restrict user = state.restrict user ∧
            call database (state.restrict request.userId) request =
              some (response, next.restrict request.userId) :=
  ⟨((unwinds user).own_eq hstart hsame hone htwo).1, fun _ _ _ _ hother h =>
    ⟨call_other hother h, call_restrict rfl h⟩⟩

/-- A database without full-text search. -/
def plainDatabase : Database Nat where
  rank query document := if query = document then some 1 else none
  higher a b := b < a
  orderBy before rows := rows.mergeSort fun a b => !before b a

def noNotes : State := ⟨fun _ _ => none, [], List.nodup_nil⟩

/-- A user saves a note and lists, another tries to overwrite it in between. -/
def disturbedRun : List Call :=
  [⟨1, ⟨1, 1, 5⟩, .noteSave "style" "tabs" none none⟩,
    ⟨2, ⟨2, 2, 6⟩, .noteSave "style" "spaces" none (some 1)⟩,
    ⟨2, ⟨2, 2, 7⟩, .noteSave "other" "mine" none none⟩, ⟨1, ⟨3, 3, 8⟩, .noteList none 50⟩]

def quietRun : List Call := disturbedRun.filter fun request => request.userId = 1

theorem notes_isolated_executed : ∃ given replies last final,
    answers (call plainDatabase) noNotes disturbedRun = some (given, last) ∧
      answers (call plainDatabase) noNotes quietRun = some (replies, final) ∧
      ownAnswers (fun request => request.userId = 1) given =
        ownAnswers (fun request => request.userId = 1) replies := by
  have hdisturbed : (answers (call plainDatabase) noNotes disturbedRun).isSome = true := by
    decide +kernel
  have hquiet : (answers (call plainDatabase) noNotes quietRun).isSome = true := by decide +kernel
  obtain ⟨⟨given, last⟩, hone⟩ := Option.isSome_iff_exists.mp hdisturbed
  obtain ⟨⟨replies, final⟩, htwo⟩ := Option.isSome_iff_exists.mp hquiet
  have hsame : disturbedRun.filter (fun request => request.userId = 1) =
      quietRun.filter fun request => request.userId = 1 := by
    simp [quietRun, List.filter_filter]
  exact ⟨given, replies, last, final, hone, htwo,
    (notes_isolated plainDatabase 1 rfl hsame hone htwo).1⟩

end CodexServer.Notes
