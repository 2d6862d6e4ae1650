import CodexServer.MessageList

/-!
# Scrolling is exact

A page is the upper end of what is below the cursor. So the pages join without a gap at the smallest
id received, whatever is appended or deleted between the calls, and a short page is the last one.
-/

open Transition (run run_append run_concat run_invariant runAllowed_true)

namespace CodexServer.MessageList

variable {table : Table} {message row : Message} {rows page : List Message}
  {userId chatId limit : Int} {beforeId : Option Int} {scroll next : Scroll}

/-- In ascending order, without duplicates. -/
def Ascending (rows : List Message) : Prop := rows.Pairwise fun one other => one.id < other.id

/-! ### One page -/

theorem mem_selected : message ∈ table.selected chatId beforeId ↔
    message ∈ table.rows ∧ message.chatId = chatId ∧
      ∀ before, beforeId = some before → message.id < before := by
  cases beforeId <;> simp [Table.selected]

/-- The rows selected are in strictly descending order. -/
theorem descending_selected (table : Table) (chatId : Int) (beforeId : Option Int) :
    ((table.selected chatId beforeId).insertionSort
    fun one other => other.id ≤ one.id).Pairwise fun one other => other.id < one.id := by
  have hsorted := List.pairwise_insertionSort (fun one other : Message => other.id ≤ one.id)
    (table.selected chatId beforeId)
  have hunique : (table.selected chatId beforeId).Pairwise fun one other => one.id ≠ other.id :=
    (List.pairwise_map.mp table.unique).sublist List.filter_sublist
  have hperm := List.perm_insertionSort (fun one other : Message => other.id ≤ one.id)
    (table.selected chatId beforeId)
  have hdistinct := (hperm.pairwise_iff fun hne => Ne.symm hne).mpr hunique
  exact (hsorted.and hdistinct).imp fun h => lt_of_le_of_ne h.1 (Ne.symm h.2)

theorem ascending_list (limit : Nat) : Ascending (table.list chatId limit beforeId) := by
  unfold Ascending Table.list
  rw [List.pairwise_reverse]
  exact (descending_selected table chatId beforeId).sublist (List.take_sublist _ _)

theorem selected_of_mem_list {limit : Nat} (h : message ∈ table.list chatId limit beforeId) :
    message ∈ table.selected chatId beforeId := by
  have hsorted := List.mem_of_mem_take (List.mem_reverse.mp h)
  exact (List.mem_insertionSort _).mp hsorted

/-- A page leaves out no row above one of its own, and a short page none at all. -/
theorem mem_list {limit : Nat} (h : message ∈ table.selected chatId beforeId)
    (hreached : (table.list chatId limit beforeId).length < limit ∨
      ∃ row ∈ table.list chatId limit beforeId, row.id ≤ message.id) :
    message ∈ table.list chatId limit beforeId := by
  have hdescending := descending_selected table chatId beforeId
  unfold Table.list at hreached ⊢
  dsimp only at hreached ⊢
  have hsorted := (List.mem_insertionSort fun one other : Message => other.id ≤ one.id).mpr h
  generalize (table.selected chatId beforeId).insertionSort
    (fun one other => other.id ≤ one.id) = sorted at *
  rw [← List.take_append_drop limit sorted] at hsorted hdescending
  refine List.mem_reverse.mpr ?_
  rcases List.mem_append.mp hsorted with htaken | hdropped
  · exact htaken
  · rcases hreached with hshort | ⟨row, hrow, hle⟩
    · rw [List.length_reverse, List.length_take] at hshort
      rw [List.drop_eq_nil_of_le (by omega)] at hdropped
      cases hdropped
    · have hlt := (List.pairwise_append.mp hdescending).2.2 row (List.mem_reverse.mp hrow) message
        hdropped
      omega

/-! ### The cursor -/

theorem smallestId_some {smallest : Int} (h : scroll.smallestId = some smallest) :
    (∃ row ∈ scroll.received, row.id = smallest) ∧
      ∀ row ∈ scroll.received, smallest ≤ row.id := by
  obtain ⟨hmem, hle⟩ := List.min?_eq_some_iff.mp h
  obtain ⟨row, hrow, hid⟩ := List.mem_map.mp hmem
  exact ⟨⟨row, hrow, hid⟩, fun other hother => hle _ (List.mem_map_of_mem hother)⟩

theorem smallestId_none (h : scroll.smallestId = none) : scroll.received = [] := by
  have hnil := List.min?_eq_none_iff.mp h
  exact List.map_eq_nil_iff.mp hnil

/-! ### The invariant -/

/-- The message is there at each of the calls. -/
def ThereAtCalls (userId chatId : Int) (init : Scroll) (actions : List Action)
    (message : Message) : Prop :=
  ∀ done limit rest scroll, actions = done ++ .call limit :: rest →
    run (step userId chatId) init done = some scroll → message ∈ scroll.db.messages.rows

/-- The message is not above the first page. -/
def Scroll.bounds (scroll : Scroll) (message : Message) : Prop :=
  ∃ first, scroll.pages.getLast? = some first ∧ ∃ row ∈ first, message.id ≤ row.id

structure Exact (userId chatId : Int) (init : Scroll) (actions : List Action) (scroll : Scroll) :
    Prop where
  reached : run (step userId chatId) init actions = some scroll
  ascending : Ascending scroll.received
  own : ∀ message ∈ scroll.received, message.chatId = chatId
  complete : ∀ message : Message, message.chatId = chatId → scroll.bounds message →
    ThereAtCalls userId chatId init actions message →
      (scroll.ended = true ∨ ∃ row ∈ scroll.received, row.id ≤ message.id) →
        message ∈ scroll.received

section

variable {init : Scroll} {done actions : List Action} {action : Action}

theorem ThereAtCalls.of_concat (h : ThereAtCalls userId chatId init (done ++ [action]) message) :
    ThereAtCalls userId chatId init done message := by
  rintro before limit rest scroll rfl hrun
  exact h before limit (rest ++ [action]) scroll (by simp) hrun

theorem ThereAtCalls.last
    (h : ThereAtCalls userId chatId init (done ++ [.call limit]) message)
    (hrun : run (step userId chatId) init done = some scroll) :
    message ∈ scroll.db.messages.rows := h done limit [] scroll rfl hrun

theorem exact_init (db : Database) : Exact userId chatId ⟨db, [], false⟩ [] ⟨db, [], false⟩ where
  reached := rfl
  ascending := .nil
  own := by simp [Scroll.received]
  complete := by
    rintro message - ⟨first, hfirst, -⟩
    cases hfirst

/-- What the others do between the calls. -/
theorem Exact.setMessages (h : Exact userId chatId init done scroll) (table : Table)
    (hstep : step userId chatId scroll action = some (scroll.setMessages table)) :
    Exact userId chatId init (done ++ [action]) (scroll.setMessages table) where
  reached := (run_concat h.reached action).trans hstep
  ascending := h.ascending
  own := h.own
  complete message hown hbounds hthere :=
    h.complete message hown hbounds hthere.of_concat

/-- A row of the next page is below what has been received. -/
theorem below_received (h : message ∈ table.selected chatId scroll.smallestId)
    (hrow : row ∈ scroll.received) : message.id < row.id := by
  cases hsmallest : scroll.smallestId with
  | none =>
      rw [smallestId_none hsmallest] at hrow
      cases hrow
  | some smallest =>
      have hlt := (mem_selected.mp h).2.2 smallest hsmallest
      have hle := (smallestId_some hsmallest).2 row hrow
      omega

theorem Exact.receive (h : Exact userId chatId init done scroll)
    (hpage : scroll.db.messages.list chatId (resolveLimit limit) scroll.smallestId = page)
    (hstep : step userId chatId scroll (.call limit) = some (scroll.receive limit page)) :
    Exact userId chatId init (done ++ [.call limit]) (scroll.receive limit page) := by
  have hselected : ∀ message ∈ page, message ∈
      scroll.db.messages.selected chatId scroll.smallestId := fun message hmem =>
    selected_of_mem_list (hpage ▸ hmem)
  have hascending : Ascending page := hpage ▸ ascending_list (resolveLimit limit)
  refine ⟨(run_concat h.reached _).trans hstep, ?_, ?_, ?_⟩
  · refine List.pairwise_append.mpr ⟨hascending, h.ascending, fun message hmem row hrow => ?_⟩
    exact below_received (hselected message hmem) hrow
  · intro message hmem
    rcases List.mem_append.mp hmem with hnew | hbefore
    · exact (mem_selected.mp (hselected message hnew)).2.1
    · exact h.own message hbefore
  · intro message hown hbounds hthere hreached
    have hrow := hthere.last h.reached
    have hpaged : message ∈ scroll.db.messages.selected chatId scroll.smallestId →
        (page.length < resolveLimit limit ∨ ∃ row ∈ page, row.id ≤ message.id) →
          message ∈ page := by
      intro hmem hreached
      rw [← hpage] at hreached ⊢
      exact mem_list hmem hreached
    -- the message is above the cursor, so received before, or below it and in the page
    by_cases habove : ∃ row ∈ scroll.received, row.id ≤ message.id
    · have hpages : scroll.pages ≠ [] := by
        rintro hnil
        obtain ⟨row, hmem, -⟩ := habove
        rw [Scroll.received, hnil] at hmem
        cases hmem
      have hbounded : scroll.bounds message := by
        obtain ⟨first, hfirst, hle⟩ := hbounds
        refine ⟨first, ?_, hle⟩
        rwa [Scroll.receive, List.getLast?_cons_of_ne_nil hpages] at hfirst
      exact List.mem_append_right page
        (h.complete message hown hbounded hthere.of_concat (.inr habove))
    · refine List.mem_append_left _ (hpaged (mem_selected.mpr ⟨hrow, hown, ?_⟩) ?_)
      · intro smallest hsmallest
        obtain ⟨row, hmem, hid⟩ := (smallestId_some hsmallest).1
        have hlt : ¬row.id ≤ message.id := fun hle => habove ⟨row, hmem, hle⟩
        omega
      · rcases hreached with hshort | ⟨row, hmem, hle⟩
        · exact .inl (of_decide_eq_true hshort)
        · rcases List.mem_append.mp hmem with hnew | hbefore
          · exact .inr ⟨row, hnew, hle⟩
          · exact absurd ⟨row, hbefore, hle⟩ habove

theorem Exact.step (h : Exact userId chatId init done scroll)
    (hstep : step userId chatId scroll action = some next) :
    Exact userId chatId init (done ++ [action]) next := by
  cases action with
  | append message =>
      obtain ⟨table, -, rfl⟩ := Option.map_eq_some_iff.mp hstep
      exact h.setMessages table hstep
  | delete ids =>
      obtain rfl := Option.some.inj hstep
      exact h.setMessages _ hstep
  | call limit =>
      have hcalled := hstep
      unfold MessageList.step listMessages at hcalled
      dsimp only at hcalled
      split at hcalled
      · cases hcalled
      · split at hcalled
        · next page hanswer =>
            obtain rfl := Option.some.inj hcalled
            split at hanswer
            · split at hanswer
              · exact h.receive (Except.ok.inj hanswer) hstep
              · cases hanswer
            · cases hanswer
        · cases hcalled

end

/-- **Scrolling is exact**: the pages are in order, of the chat alone, and, once one of them is
short, leave out no message that was there at every call. -/
theorem scroll_exact {db : Database} {actions : List Action}
    (hrun : run (step userId chatId) ⟨db, [], false⟩ actions = some scroll) :
    Ascending scroll.received ∧ (∀ message ∈ scroll.received, message.chatId = chatId) ∧
      (scroll.ended = true → ∀ message : Message, message.chatId = chatId →
        scroll.bounds message → ThereAtCalls userId chatId ⟨db, [], false⟩ actions message →
          message ∈ scroll.received) := by
  have hexact : Exact userId chatId ⟨db, [], false⟩ actions scroll :=
    run_invariant (exact_init db) (fun _ _ _ _ hbefore _ hstep => hbefore.step hstep) hrun
      runAllowed_true
  exact ⟨hexact.ascending, hexact.own, fun hended message hown hbounds hthere =>
    hexact.complete message hown hbounds hthere (.inl hended)⟩

/-! ### A history scrolled to its beginning -/

/-- Two chats of one user, written to in turns. -/
def twoChats : Database where
  owner chatId := if chatId = 7 ∨ chatId = 8 then some 1 else none
  messages := ⟨[⟨5, 7⟩, ⟨4, 8⟩, ⟨3, 7⟩, ⟨2, 7⟩, ⟨1, 7⟩], by decide⟩

/-- A message arrives and a partial row goes between the calls. -/
def scrolling : List Action :=
  [.call 2, .append ⟨6, 7⟩, .delete [2], .call 1, .append ⟨7, 8⟩, .call 2]

def scrolled : Option Scroll := run (step 1 7) ⟨twoChats, [], false⟩ scrolling

theorem twoChats_exact : ∃ scroll, scrolled = some scroll ∧
    scroll.pages = [[], [⟨1, 7⟩], [⟨3, 7⟩, ⟨5, 7⟩]] ∧ Ascending scroll.received := by
  obtain ⟨scroll, hscroll⟩ : ∃ scroll, scrolled = some scroll :=
    Option.isSome_iff_exists.mp (by decide +kernel)
  refine ⟨scroll, hscroll, ?_, (scroll_exact hscroll).1⟩
  have hpages : scrolled.map Scroll.pages = some [[], [⟨1, 7⟩], [⟨3, 7⟩, ⟨5, 7⟩]] := by
    decide +kernel
  rw [hscroll] at hpages
  exact Option.some.inj hpages

end CodexServer.MessageList
