import Mathlib.Tactic.Push

/-!
# Entries that leave no trace

A list is read entry by entry, until it ends or an entry ends the reading. Some of the entries are
to have no part in what comes out. Where such an entry either passes or ends the reading in a way
of its own, it has no part just if each of them passes that is come to.
-/

namespace Noninterference

variable {σ α ε : Type} {read : σ → α → Except ε σ} {aside : α → Bool} {own : ε → Prop}

/-- What is done aside: an entry that is aside passes, or ends the reading in a way of its own. -/
structure Aside (read : σ → α → Except ε σ) (aside : α → Bool) (own : ε → Prop) : Prop where
  passes : ∀ state {entry}, aside entry = true →
    read state entry = .ok state ∨ ∃ ending, read state entry = .error ending ∧ own ending
  others : ∀ {state entry ending}, aside entry = false →
    read state entry = .error ending → ¬own ending

/-- The entries that are not aside. -/
def rest (aside : α → Bool) (entries : List α) : List α :=
  entries.filter fun entry => !aside entry

/-- Every entry aside that the others let come to passes. -/
def Silent (read : σ → α → Except ε σ) (aside : α → Bool) (state : σ) (entries : List α) : Prop :=
  ∀ before entry after, entries = before ++ entry :: after → aside entry = true →
    ∀ reached, (rest aside before).foldlM read state = .ok reached →
      read reached entry = .ok reached

theorem Aside.rest_ends (hsound : Aside read aside own) {entries : List α} {state : σ}
    {ending : ε} (hends : (rest aside entries).foldlM read state = .error ending) :
    ¬own ending := by
  induction entries generalizing state with
  | nil => cases hends
  | cons entry entries ih =>
      cases hapart : aside entry with
      | true =>
          rw [rest, List.filter_cons_of_neg (by simp [hapart])] at hends
          exact ih hends
      | false =>
          rw [rest, List.filter_cons_of_pos (by simp [hapart]), List.foldlM_cons] at hends
          cases hfirst : read state entry with
          | error left =>
              rw [hfirst] at hends
              cases hends
              exact hsound.others hapart hfirst
          | ok next =>
              rw [hfirst] at hends
              exact ih hends

theorem silent_nil (state : σ) : Silent read aside state [] := by
  intro before entry after hsplit
  exact absurd hsplit (by simp)

theorem silent_cons_aside {state : σ} {entry : α} {entries : List α}
    (hapart : aside entry = true) :
    Silent read aside state (entry :: entries) ↔
      read state entry = .ok state ∧ Silent read aside state entries := by
  constructor
  · intro hsilent
    refine ⟨hsilent [] entry entries rfl hapart state rfl, ?_⟩
    intro before other after hsplit hother reached hreads
    refine hsilent (entry :: before) other after (by rw [hsplit]; rfl) hother reached ?_
    rwa [rest, List.filter_cons_of_neg (by simp [hapart])]
  · rintro ⟨hfirst, hsilent⟩ before other after hsplit hother reached hreads
    cases before with
    | nil =>
        obtain ⟨rfl, rfl⟩ := List.cons.inj hsplit
        cases hreads
        exact hfirst
    | cons head before =>
        obtain ⟨rfl, rfl⟩ := List.cons.inj hsplit
        rw [rest, List.filter_cons_of_neg (by simp [hapart])] at hreads
        exact hsilent before other after rfl hother reached hreads

theorem silent_cons_ok {state next : σ} {entry : α} {entries : List α}
    (hapart : aside entry = false) (hfirst : read state entry = .ok next) :
    Silent read aside state (entry :: entries) ↔ Silent read aside next entries := by
  have hstep (before : List α) : (rest aside (entry :: before)).foldlM read state =
      (rest aside before).foldlM read next := by
    rw [rest, List.filter_cons_of_pos (by simp [hapart]), List.foldlM_cons, hfirst]
    rfl
  constructor
  · intro hsilent before other after hsplit hother reached hreads
    exact hsilent (entry :: before) other after (by rw [hsplit]; rfl) hother reached
      (by rwa [hstep])
  · intro hsilent before other after hsplit hother reached hreads
    cases before with
    | nil =>
        obtain ⟨rfl, rfl⟩ := List.cons.inj hsplit
        exact absurd hother (by simp [hapart])
    | cons head before =>
        obtain ⟨rfl, rfl⟩ := List.cons.inj hsplit
        exact hsilent before other after rfl hother reached (by rwa [← hstep])

theorem silent_cons_error {state : σ} {entry : α} {entries : List α} {ending : ε}
    (hapart : aside entry = false) (hfirst : read state entry = .error ending) :
    Silent read aside state (entry :: entries) := by
  intro before other after hsplit hother reached hreads
  cases before with
  | nil =>
      obtain ⟨rfl, rfl⟩ := List.cons.inj hsplit
      exact absurd hother (by simp [hapart])
  | cons head before =>
      obtain ⟨rfl, rfl⟩ := List.cons.inj hsplit
      rw [rest, List.filter_cons_of_pos (by simp [hapart]), List.foldlM_cons, hfirst] at hreads
      cases hreads

/-- With silent entries aside, the runs with and without them are one. -/
theorem Silent.foldlM_eq {entries : List α} {state : σ}
    (hsilent : Silent read aside state entries) :
    entries.foldlM read state = (rest aside entries).foldlM read state := by
  induction entries generalizing state with
  | nil => rfl
  | cons entry entries ih =>
      cases hapart : aside entry with
      | true =>
          have hdropped : rest aside (entry :: entries) = rest aside entries :=
            List.filter_cons_of_neg (by simp [hapart])
          obtain ⟨hfirst, hsilent⟩ := (silent_cons_aside hapart).1 hsilent
          rw [hdropped, List.foldlM_cons, hfirst]
          exact ih hsilent
      | false =>
          have hkept : rest aside (entry :: entries) = entry :: rest aside entries :=
            List.filter_cons_of_pos (by simp [hapart])
          rw [hkept, List.foldlM_cons, List.foldlM_cons]
          cases hfirst : read state entry with
          | ok next => exact ih ((silent_cons_ok hapart hfirst).1 hsilent)
          | error ending => rfl

/-- Otherwise the run ends in a way that the one without them cannot. -/
theorem Aside.ends (hsound : Aside read aside own) {entries : List α} {state : σ}
    (hloud : ¬Silent read aside state entries) :
    ∃ ending, entries.foldlM read state = .error ending ∧ own ending := by
  induction entries generalizing state with
  | nil => exact absurd (silent_nil state) hloud
  | cons entry entries ih =>
      rw [List.foldlM_cons]
      cases hapart : aside entry with
      | true =>
          rw [silent_cons_aside hapart] at hloud
          rcases hsound.passes state hapart with hfirst | ⟨ending, hfirst, hmarked⟩
          · rw [hfirst]
            exact ih fun hsilent => hloud ⟨hfirst, hsilent⟩
          · rw [hfirst]
            exact ⟨ending, rfl, hmarked⟩
      | false =>
          cases hfirst : read state entry with
          | ok next =>
              rw [silent_cons_ok hapart hfirst] at hloud
              exact ih hloud
          | error ending => exact absurd (silent_cons_error hapart hfirst) hloud

/-! ### Two runs

Each action is somebody's and has an answer. If the actions of the others leave what one sees as it
is, and one's own depend on nothing else, one's answers are the same whatever the others do. -/

section Unwinding

variable {σ α ω ν : Type} {act : σ → α → Option (ω × σ)} {mine : α → Bool} {view : σ → ν}

/-- Every action with its answer. -/
def answers (act : σ → α → Option (ω × σ)) : σ → List α → Option (List (α × ω) × σ)
  | state, [] => some ([], state)
  | state, action :: actions =>
      (act state action).bind fun first =>
        (answers act first.2 actions).map fun last => ((action, first.1) :: last.1, last.2)

/-- The answers that are mine. -/
def ownAnswers (mine : α → Bool) (given : List (α × ω)) : List (α × ω) :=
  given.filter fun entry => mine entry.1

structure Unwinds (act : σ → α → Option (ω × σ)) (mine : α → Bool) (view : σ → ν) : Prop where
  respects : ∀ {state action answer next}, mine action = false →
    act state action = some (answer, next) → view next = view state
  consistent : ∀ {state other action answer reply next later}, mine action = true →
    view state = view other → act state action = some (answer, next) →
      act other action = some (reply, later) → answer = reply ∧ view next = view later

theorem answers_cons {state last : σ} {action : α} {actions : List α} {given : List (α × ω)}
    (h : answers act state (action :: actions) = some (given, last)) :
    ∃ answer next rest, act state action = some (answer, next) ∧
      answers act next actions = some (rest, last) ∧ given = (action, answer) :: rest := by
  obtain ⟨⟨answer, next⟩, hact, hrest⟩ := Option.bind_eq_some_iff.mp h
  obtain ⟨⟨rest, final⟩, hlast, heq⟩ := Option.map_eq_some_iff.mp hrest
  cases heq
  exact ⟨answer, next, rest, hact, hlast, rfl⟩

/-- A run without an action of mine has no answer for me and shows me nothing. -/
theorem Unwinds.idle (hsound : Unwinds act mine view) {state last : σ} {actions : List α}
    {given : List (α × ω)} (hnone : actions.filter mine = [])
    (hrun : answers act state actions = some (given, last)) :
    ownAnswers mine given = [] ∧ view last = view state := by
  induction actions generalizing state given with
  | nil =>
      cases hrun
      exact ⟨rfl, rfl⟩
  | cons action actions ih =>
      have hapart : mine action = false := by
        simpa using List.filter_eq_nil_iff.mp hnone action List.mem_cons_self
      obtain ⟨answer, next, rest, hact, hrest, rfl⟩ := answers_cons hrun
      rw [List.filter_cons_of_neg (by simp [hapart])] at hnone
      obtain ⟨hempty, hsame⟩ := ih hnone hrest
      refine ⟨?_, hsame.trans (hsound.respects hapart hact)⟩
      rw [ownAnswers, List.filter_cons_of_neg (by simp [hapart])]
      exact hempty

/-- Up to the first action of mine nothing is answered or shown to me. -/
theorem Unwinds.first (hsound : Unwinds act mine view) {state last : σ} {actions rest : List α}
    {action : α} {given : List (α × ω)} (hheads : actions.filter mine = action :: rest)
    (hrun : answers act state actions = some (given, last)) :
    ∃ before answer next actions' given', mine action = true ∧ view before = view state ∧
      act before action = some (answer, next) ∧
      answers act next actions' = some (given', last) ∧ actions'.filter mine = rest ∧
      ownAnswers mine given = (action, answer) :: ownAnswers mine given' := by
  induction actions generalizing state given with
  | nil => cases hheads
  | cons here actions ih =>
      obtain ⟨answer, next, later, hact, hrest, rfl⟩ := answers_cons hrun
      cases hapart : mine here with
      | true =>
          rw [List.filter_cons_of_pos hapart] at hheads
          obtain ⟨rfl, rfl⟩ := List.cons.inj hheads
          refine ⟨state, answer, next, actions, later, hapart, rfl, hact, hrest, rfl, ?_⟩
          exact List.filter_cons_of_pos hapart
      | false =>
          rw [List.filter_cons_of_neg (by simp [hapart])] at hheads
          obtain ⟨before, reply, after, actions', given', hmine, hsame, hbefore, hlast, hfilter,
            heq⟩ := ih hheads hrest
          refine ⟨before, reply, after, actions', given', hmine,
            hsame.trans (hsound.respects hapart hact), hbefore, hlast, hfilter, ?_⟩
          rw [← heq]
          exact List.filter_cons_of_neg (by simp [hapart])

/-- **Unwinding.** Two runs in which I do the same give me the same answers. -/
theorem Unwinds.own_eq (hsound : Unwinds act mine view) {state other last final : σ}
    {actions others : List α} {given replies : List (α × ω)} (hsame : view state = view other)
    (hown : actions.filter mine = others.filter mine)
    (hrun : answers act state actions = some (given, last))
    (hagain : answers act other others = some (replies, final)) :
    ownAnswers mine given = ownAnswers mine replies ∧ view last = view final := by
  generalize hactions : actions.filter mine = wanted at hown
  induction wanted generalizing state other actions others given replies with
  | nil =>
      obtain ⟨hempty, hshown⟩ := hsound.idle hactions hrun
      obtain ⟨hempty', hshown'⟩ := hsound.idle hown.symm hagain
      exact ⟨hempty.trans hempty'.symm, hshown.trans (hsame.trans hshown'.symm)⟩
  | cons action wanted ih =>
      obtain ⟨before, answer, next, actions', given', hmine, hbefore, hact, hrest, hfilter, heq⟩ :=
        hsound.first hactions hrun
      obtain ⟨before', reply, next', others', replies', -, hbefore', hact', hrest', hfilter',
        heq'⟩ := hsound.first hown.symm hagain
      have hseen := hbefore.trans (hsame.trans hbefore'.symm)
      obtain ⟨rfl, hshown⟩ := hsound.consistent hmine hseen hact hact'
      obtain ⟨htails, hends⟩ := ih hshown hrest hrest' hfilter hfilter'.symm
      exact ⟨by rw [heq, heq', htails], hends⟩

end Unwinding

end Noninterference
