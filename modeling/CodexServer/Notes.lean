import Mathlib.Logic.Function.Basic
import Mathlib.Data.List.Dedup
import Mathlib.Data.String.Basic

/-!
# Notes

`NoteService` over the tables `notebooks` and `notes`, with the transactions of its callers: the RPC
service and the MCP tools. The ids of new rows and the time come with each call.
-/

namespace CodexServer.Notes

/-! ### The tables -/

inductive NotebookKind
  | personal
deriving DecidableEq

structure Notebook where
  id : Nat
  userId : Nat
  title : String
  kind : NotebookKind
deriving DecidableEq

structure Note where
  id : Nat
  userId : Nat
  notebookId : Nat
  title : String
  body : String
  tags : List String
  updatedAt : Nat
deriving DecidableEq

/-- A user has one notebook of a kind, and an id is that of one note. -/
@[ext]
structure State where
  notebooks : Nat → NotebookKind → Option Notebook
  notes : List Note
  unique : (notes.map Note.id).Nodup

namespace State

variable (state : State)

def insertNotebook (notebook : Notebook) : State where
  notebooks := Function.update state.notebooks notebook.userId
    (Function.update (state.notebooks notebook.userId) notebook.kind (some notebook))
  notes := state.notes
  unique := state.unique

/-- `none` where the id is taken. -/
def insertNote (note : Note) : Option State :=
  if fresh : note.id ∉ state.notes.map Note.id then
    some ⟨state.notebooks, state.notes ++ [note], by
      rw [List.map_append, List.map_singleton]
      exact List.nodup_append.mpr ⟨state.unique, List.nodup_singleton _, fun a ha b hb heq =>
        fresh (List.mem_singleton.mp hb ▸ heq ▸ ha)⟩⟩
  else none

/-- The row of this id is the note now. -/
def put (note : Note) (row : Note) : Note := if row.id = note.id then note else row

theorem put_id (note row : Note) : (put note row).id = row.id := by
  unfold put
  split
  · next heq => exact heq.symm
  · rfl

def updateNote (note : Note) : State where
  notebooks := state.notebooks
  notes := state.notes.map (put note)
  unique := by
    have hsame : Note.id ∘ put note = Note.id := funext (put_id note)
    rw [List.map_map, hsame]
    exact state.unique

def deleteNote (noteId : Nat) : State where
  notebooks := state.notebooks
  notes := state.notes.filter fun row => row.id ≠ noteId
  unique := state.unique.sublist (List.filter_sublist.map _)

end State

/-- What the database makes of a query and of an `ORDER BY`. -/
structure Database (ρ : Type) where
  /-- The rank of a document, if the query matches it. -/
  rank : (query document : String) → Option ρ
  higher : ρ → ρ → Bool
  /-- The rows in an order, those that it leaves open as the database puts them. -/
  orderBy : {α : Type} → (before : α → α → Bool) → List α → List α

/-- What a call is supplied with, should it add rows or change one. -/
structure Supplied where
  notebookId : Nat
  noteId : Nat
  now : Nat

/-! ### The service -/

inductive Operation
  | get (noteId : Nat)
  | upsert (noteId : Option Nat) (title body : String) (tags : List String)
  | list (tags : Option (List String)) (limit offset : Nat)
  | search (query : String) (tags : Option (List String)) (limit offset : Nat)
  | delete (noteId : Nat)
  | defaultNotebook

inductive Result (ρ : Type)
  | found (note : Option Note)
  | saved (note : Note)
  | notes (notes : List Note)
  | hits (hits : List (Note × ρ))
  | removed (removed : Bool)
  | notebook (notebook : Notebook)
  | lookupError (text : String)

section Service

variable {ρ : Type} (database : Database ρ) (state : State) (userId : Nat) (supplied : Supplied)

def defaultNotebook : Notebook × State :=
  match state.notebooks userId .personal with
  | some notebook => (notebook, state)
  | none =>
      let notebook : Notebook := ⟨supplied.notebookId, userId, "Personal notes", .personal⟩
      (notebook, state.insertNotebook notebook)

/-- The row of the note, if it is in the user's notebook. -/
def get (noteId : Nat) : Option Note × State :=
  let notebook := defaultNotebook state userId supplied
  (notebook.2.notes.find? fun note =>
    note.id = noteId && note.userId = userId && note.notebookId = notebook.1.id, notebook.2)

/-- The `UPDATE` that the flush sends if the note has changed. -/
def revise (note : Note) (title body : String) (tags : List String) (now : Nat) : Note :=
  if note.title = title ∧ note.body = body ∧ note.tags = tags then note
  else { note with title := title, body := body, tags := tags, updatedAt := now }

/-- `none` where the id for a new note is taken. -/
def upsert (noteId : Option Nat) (title body : String) (tags : List String) :
    Option (Result ρ × State) :=
  let notebook := defaultNotebook state userId supplied
  match noteId with
  | none =>
      let note : Note := ⟨supplied.noteId, userId, notebook.1.id, title, body, tags, supplied.now⟩
      (notebook.2.insertNote note).map fun state => (.saved note, state)
  | some noteId =>
      let found := get notebook.2 userId supplied noteId
      match found.1 with
      | none => some (.lookupError ("note " ++ toString noteId ++ " not found"), found.2)
      | some note =>
          let changed := revise note title body tags supplied.now
          some (.saved changed, found.2.updateNote changed)

/-- `tags.contains`, for a filter that is there and not empty. -/
def tagged (tags : Option (List String)) (note : Note) : Bool :=
  (tags.getD []).all fun tag => note.tags.contains tag

def page {α : Type} (limit offset : Nat) (rows : List α) : List α := (rows.drop offset).take limit

def list (tags : Option (List String)) (limit offset : Nat) : List Note × State :=
  let notebook := defaultNotebook state userId supplied
  let rows := notebook.2.notes.filter fun note =>
    note.userId = userId && note.notebookId = notebook.1.id && tagged tags note
  (page limit offset (database.orderBy (fun a b => b.updatedAt < a.updatedAt) rows), notebook.2)

def search (query : String) (tags : Option (List String)) (limit offset : Nat) :
    List (Note × ρ) × State :=
  let notebook := defaultNotebook state userId supplied
  let rows := notebook.2.notes.filter fun note =>
    note.userId = userId && note.notebookId = notebook.1.id && tagged tags note
  let ranked := rows.filterMap fun note =>
    (database.rank query (note.title ++ " " ++ note.body)).map fun rank => (note, rank)
  (page limit offset (database.orderBy (fun a b => database.higher a.2 b.2) ranked), notebook.2)

def delete (noteId : Nat) : Bool × State :=
  let found := get state userId supplied noteId
  match found.1 with
  | none => (false, found.2)
  | some note => (true, found.2.deleteNote note.id)

def execute : Operation → Option (Result ρ × State)
  | .get noteId =>
      let found := get state userId supplied noteId
      some (.found found.1, found.2)
  | .upsert noteId title body tags => upsert state userId supplied noteId title body tags
  | .list tags limit offset =>
      let listed := list database state userId supplied tags limit offset
      some (.notes listed.1, listed.2)
  | .search query tags limit offset =>
      let found := search database state userId supplied query tags limit offset
      some (.hits found.1, found.2)
  | .delete noteId =>
      let deleted := delete state userId supplied noteId
      some (.removed deleted.1, deleted.2)
  | .defaultNotebook =>
      let notebook := defaultNotebook state userId supplied
      some (.notebook notebook.1, notebook.2)

end Service

/-! ### The tools -/

def codexTag : String := "codex:auto"

structure NoteRef where
  id : Nat
  title : String
  tags : List String
  updatedAt : Nat

structure NoteHit (ρ : Type) where
  id : Nat
  title : String
  body : String
  tags : List String
  updatedAt : Nat
  rank : Option ρ

/-- A call of the service, committed by the caller or not, or of a tool. -/
inductive Request
  | service (operation : Operation) (commit : Bool)
  | noteSave (title body : String) (tags : Option (List String)) (noteId : Option Nat)
  | noteSearch (query : String) (tags : Option (List String)) (limit : Nat)
  | noteList (tags : Option (List String)) (limit : Nat)

/-- `sorted({*(tags or []), _CODEX_TAG})` -/
def finalTags (tags : Option (List String)) : List String :=
  (tags.getD [] ++ [codexTag]).dedup.mergeSort fun a b => decide (a ≤ b)

def Request.operation : Request → Operation
  | service operation _ => operation
  | noteSave title body tags noteId => .upsert noteId title body (finalTags tags)
  | noteSearch query tags limit => .search query tags limit 0
  | noteList tags limit => .list tags limit 0

/-- Only `note_save` commits. -/
def Request.commits : Request → Bool
  | service _ commit => commit
  | noteSave .. => true
  | noteSearch .. | noteList .. => false

inductive Response (ρ : Type)
  | result (result : Result ρ)
  | ref (note : NoteRef)
  | hits (hits : List (NoteHit ρ))
  | toolError (text : String)

def noteRef (note : Note) : NoteRef := ⟨note.id, note.title, note.tags, note.updatedAt⟩

def noteHit {ρ : Type} (rank : Option ρ) (note : Note) : NoteHit ρ :=
  ⟨note.id, note.title, note.body, note.tags, note.updatedAt, rank⟩

def Request.response {ρ : Type} : Request → Result ρ → Response ρ
  | noteSave .., .saved note => .ref (noteRef note)
  | noteSave .., .lookupError text => .toolError text
  | noteSearch .., .hits hits => .hits (hits.map fun hit => noteHit (some hit.2) hit.1)
  | noteList .., .notes notes => .hits (notes.map (noteHit none))
  | _, result => .result result

structure Call where
  userId : Nat
  supplied : Supplied
  request : Request

/-- An exception is not committed. -/
def Result.fails {ρ : Type} : Result ρ → Bool
  | lookupError _ => true
  | found _ | saved _ | notes _ | hits _ | removed _ | notebook _ => false

/-- A call in a transaction of its own. -/
def call {ρ : Type} (database : Database ρ) (state : State) (call : Call) :
    Option (Response ρ × State) :=
  (execute database state call.userId call.supplied call.request.operation).map fun done =>
    (call.request.response done.1,
      if call.request.commits && !done.1.fails then done.2 else state)

end CodexServer.Notes
