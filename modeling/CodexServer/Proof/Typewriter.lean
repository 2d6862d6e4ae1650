import CodexServer.Typewriter
import Mathlib.Data.List.Perm.Basic

/-!
# The typewriter loses nothing

The text that is shown and the text that waits are together what was pushed. A loop of the current
generation is alive just while `typing` is set, so the end of that loop is the last that a promise
can wait for. There is one resolver, so the same holds of every promise as long as no second one is
made while one is pending.
-/

open Transition (run RunAllowed run_invariant)

namespace CodexServer.Typewriter

variable {state next : State} {pushed : Text} {loopGeneration : Nat}

/-- The deltas pushed since the last reset. -/
def pushedSince (actions : List Action) : Text :=
  actions.foldl (fun text action =>
    match action with
    | .push delta => text ++ delta
    | .reset => []
    | _ => text) []

/-! ### Fields -/

theorem State.resolve_eq : state.resolve = { state with
    resolveDone := none
    pending := state.resolveDone.elim state.pending state.pending.erase } := by
  obtain ⟨buffer, displayed, typing, resolveDone, generation, loops, promises, pending⟩ := state
  cases resolveDone <;> rfl

/-- A loop of an older generation does no more than end. -/
theorem State.turn_older (h : loopGeneration ≠ state.generation) :
    state.turn loopGeneration = state := if_neg h

/-- What is left of the loops when one of them wakes. -/
theorem count_eraseIdx {loops : List Nat} {index : Nat} (generation : Nat)
    (hloop : loops[index]? = some loopGeneration) :
    (loops.eraseIdx index).count generation + (if loopGeneration = generation then 1 else 0) =
      loops.count generation := by
  obtain ⟨hindex, hat⟩ := List.getElem?_eq_some_iff.mp hloop
  have hperm := (List.getElem_cons_eraseIdx_perm hindex).count_eq generation
  rw [← hperm, List.count_cons, hat]
  simp only [beq_iff_eq]

/-! ### The invariant -/

/-- The state with the text that has been pushed since the last reset. -/
structure Shows (pushed : Text) (state : State) : Prop where
  text : state.displayed ++ state.buffer = pushed
  alive : state.loops.count state.generation = state.typing.toNat
  older : ∀ generation ∈ state.loops, generation ≤ state.generation
  busy : state.buffer ≠ [] → state.typing = true
  waits : state.resolveDone.isSome = true → state.typing = true

theorem shows_init : Shows [] {} where
  text := rfl
  alive := rfl
  older := by simp
  busy := by simp
  waits := by simp

/-- A loop of the current generation, alone, from its test on. -/
theorem Shows.turn (htext : state.displayed ++ state.buffer = pushed)
    (halone : state.loops.count state.generation = 0)
    (holder : ∀ generation ∈ state.loops, generation ≤ state.generation)
    (htyping : state.typing = true) : Shows pushed (state.turn state.generation) := by
  unfold State.turn
  rw [if_pos rfl]
  split
  · next c buffer hbuffer =>
      refine ⟨?_, ?_, ?_, fun _ => htyping, fun _ => htyping⟩
      · rw [← htext, hbuffer]
        simp
      · simp [halone, htyping]
      · intro generation hmem
        rcases List.mem_append.mp hmem with hbefore | hlast
        · exact holder generation hbefore
        · exact (List.mem_singleton.mp hlast).le
  · next hbuffer =>
      rw [State.resolve_eq]
      exact ⟨htext, halone, holder, fun hne => absurd hbuffer hne, fun hsome => by simp at hsome⟩

theorem Shows.push (h : Shows pushed state) (delta : Text) :
    Shows (pushed ++ delta) (state.push delta) := by
  unfold State.push
  split
  · next hempty =>
      rw [List.isEmpty_iff.mp hempty, List.append_nil]
      exact h
  · unfold State.loop
    dsimp only
    have htext : state.displayed ++ (state.buffer ++ delta) = pushed ++ delta := by
      rw [← List.append_assoc, h.text]
    split
    · next htyping => exact ⟨htext, h.alive, h.older, fun _ => htyping, fun _ => htyping⟩
    · next htyping =>
        have halive := h.alive
        rw [Bool.eq_false_iff.mpr htyping] at halive
        exact Shows.turn htext halive h.older rfl

theorem Shows.flush (h : Shows pushed state) : Shows pushed state.flush := by
  unfold State.flush
  split
  · exact h
  · rw [State.resolve_eq]
    refine ⟨?_, h.alive, h.older, fun hne => absurd rfl hne, fun hsome => by simp at hsome⟩
    rw [← h.text]
    exact List.append_nil _

theorem Shows.reset (h : Shows pushed state) : Shows [] state.reset := by
  unfold State.reset
  rw [State.resolve_eq]
  refine ⟨rfl, ?_, fun generation hmem => ?_, fun hne => absurd rfl hne,
    fun hsome => by simp at hsome⟩
  · refine List.count_eq_zero.mpr fun hmem => ?_
    have hle : state.generation + 1 ≤ state.generation := h.older _ hmem
    omega
  · have hle := h.older generation hmem
    exact Nat.le_succ_of_le hle

theorem Shows.drained (h : Shows pushed state) : Shows pushed state.drained := by
  unfold State.drained
  split
  · exact h
  · next hwaiting =>
      refine ⟨h.text, h.alive, h.older, h.busy, fun _ => ?_⟩
      by_cases hbuffer : state.buffer = []
      · simpa [hbuffer] using hwaiting
      · exact h.busy hbuffer

theorem Shows.wake (h : Shows pushed state) {index : Nat} (hwake : state.wake index = some next) :
    Shows pushed next := by
  obtain ⟨loopGeneration, hloop, rfl⟩ := Option.map_eq_some_iff.mp hwake
  have hcount := count_eraseIdx state.generation hloop
  have holder : ∀ generation ∈ state.loops.eraseIdx index, generation ≤ state.generation :=
    fun generation hmem => h.older generation (List.mem_of_mem_eraseIdx hmem)
  by_cases hcurrent : loopGeneration = state.generation
  · subst hcurrent
    rw [if_pos rfl, h.alive] at hcount
    have htyping : state.typing = true := by
      by_contra hnot
      rw [Bool.eq_false_iff.mpr hnot] at hcount
      simp at hcount
    rw [htyping] at hcount
    exact Shows.turn h.text (by simpa using hcount) holder htyping
  · rw [if_neg hcurrent, h.alive] at hcount
    have hkept : ({ state with loops := state.loops.eraseIdx index } : State).turn loopGeneration =
        { state with loops := state.loops.eraseIdx index } := State.turn_older hcurrent
    rw [hkept]
    exact ⟨h.text, hcount, holder, h.busy, h.waits⟩

theorem pushedSince_concat (done : List Action) (action : Action) :
    pushedSince (done ++ [action]) =
      match action with
      | .push delta => pushedSince done ++ delta
      | .reset => []
      | _ => pushedSince done := by
  unfold pushedSince
  rw [List.foldl_append]
  rfl

theorem Shows.step {done : List Action} {action : Action} (h : Shows (pushedSince done) state)
    (hstep : step state action = some next) : Shows (pushedSince (done ++ [action])) next := by
  rw [pushedSince_concat]
  cases action with
  | push delta =>
      cases hstep
      exact h.push delta
  | flush =>
      cases hstep
      exact h.flush
  | reset =>
      cases hstep
      exact h.reset
  | drained =>
      cases hstep
      exact h.drained
  | wake index => exact h.wake hstep

/-! ### Promises -/

/-- The promise that is pending is the one that the resolver is for. -/
def Single (state : State) : Prop := state.pending = state.resolveDone.toList

theorem single_resolve (h : Single state) : Single state.resolve := by
  unfold Single at h ⊢
  rw [State.resolve_eq, h]
  cases state.resolveDone <;> simp

theorem single_turn (h : Single state) : Single (state.turn loopGeneration) := by
  unfold State.turn
  split
  · split
    · exact h
    · exact single_resolve h
  · exact h

/-- A second promise is not made while one is pending. -/
def WaitsAlone (state : State) (action : Action) : Prop :=
  action = .drained → state.resolveDone = none

theorem single_step {action : Action} (h : Single state) (hwaits : WaitsAlone state action)
    (hstep : step state action = some next) : Single next := by
  cases action with
  | push delta =>
      cases hstep
      unfold State.push
      split
      · exact h
      · unfold State.loop
        split
        · exact h
        · exact single_turn h
  | flush =>
      cases hstep
      unfold State.flush
      split
      · exact h
      · exact single_resolve h
  | reset =>
      cases hstep
      exact single_resolve h
  | drained =>
      cases hstep
      unfold State.drained
      split
      · exact h
      · have hnone : state.pending = [] := by
          rw [h, hwaits rfl]
          rfl
        exact congrArg (state.promises :: ·) hnone
  | wake index =>
      obtain ⟨loopGeneration, -, rfl⟩ := Option.map_eq_some_iff.mp hstep
      exact single_turn h

/-! ### Every run -/

structure Keeps (actions : List Action) (state : State) : Prop where
  shows : Shows (pushedSince actions) state
  single : Single state

/-- What the page relies on after these calls and wake-ups. -/
structure Conserves (actions : List Action) (state : State) : Prop where
  text : state.displayed ++ state.buffer = pushedSince actions
  alone : state.loops.count state.generation ≤ 1
  older : ∀ index loopGeneration, state.loops[index]? = some loopGeneration →
    loopGeneration ≠ state.generation →
      state.wake index = some { state with loops := state.loops.eraseIdx index }
  resolved : state.buffer = [] → state.generation ∉ state.loops → state.pending = []

theorem Shows.conserves {actions : List Action} (h : Shows (pushedSince actions) state)
    (hsingle : Single state) : Conserves actions state where
  text := h.text
  alone := by
    rw [h.alive]
    exact Bool.toNat_le _
  older := by
    intro index loopGeneration hloop hne
    unfold State.wake
    rw [hloop, Option.map_some]
    exact congrArg some (State.turn_older hne)
  resolved := by
    intro _ hgone
    have htyping : state.typing = false := by
      have halive := h.alive
      rw [List.count_eq_zero.mpr hgone] at halive
      simpa using halive.symm
    cases hresolver : state.resolveDone with
    | none =>
        rw [hsingle, hresolver]
        rfl
    | some promise =>
        have hbusy := h.waits (by rw [hresolver]; rfl)
        rw [htyping] at hbusy
        cases hbusy

/-- **The typewriter loses nothing** in a run where one at most waits for it. -/
theorem typewriter_conserves {actions : List Action} (hrun : run step {} actions = some state)
    (hwaits : RunAllowed step WaitsAlone {} actions) : Conserves actions state := by
  have hkept : Keeps actions state := by
    refine run_invariant ⟨shows_init, rfl⟩ ?_ hrun hwaits
    intro done before action after hbefore hallowed hstep
    exact ⟨hbefore.shows.step hstep, single_step hbefore.single hallowed hstep⟩
  exact hkept.shows.conserves hkept.single

/-- One waits for two characters to be typed. -/
def oneWaits : List Action := [.push [72, 105], .drained, .wake 0, .wake 0]

theorem oneWaits_conserves : ∃ state, run step {} oneWaits = some state ∧
    state.displayed = [72, 105] ∧ Conserves oneWaits state := by
  refine ⟨_, rfl, rfl, typewriter_conserves rfl ?_⟩
  refine ⟨by rintro ⟨⟩, ?_⟩
  rintro _ ⟨⟩
  refine ⟨fun _ => rfl, ?_⟩
  rintro _ ⟨⟩
  refine ⟨by rintro ⟨⟩, ?_⟩
  rintro _ ⟨⟩
  exact ⟨by rintro ⟨⟩, fun _ _ => trivial⟩

/-- Two wait for it. -/
def twoWait : List Action := [.push [72, 105], .drained, .drained, .wake 0, .wake 0]

theorem first_waiter_forgotten : ¬∀ actions state, run step {} actions = some state →
    Conserves actions state := by
  intro hall
  have hlost : ∃ state, run step {} twoWait = some state ∧ state.buffer = [] ∧
      state.generation ∉ state.loops ∧ state.pending ≠ [] :=
    ⟨_, rfl, by decide, by decide, by decide⟩
  obtain ⟨state, hrun, hbuffer, hgone, hpending⟩ := hlost
  exact hpending ((hall twoWait state hrun).resolved hbuffer hgone)

end CodexServer.Typewriter
