import Mathlib.Data.List.Basic
import Mathlib.Data.List.Infix
import Mathlib.Data.List.Induction
import Mathlib.Data.Option.Basic

/-!
# Runs of a transition system

A system is a partial step function. Everything said about its runs goes through `Reach`: the states
reached by steps that all satisfy a condition on the state before the step. One induction, done here
once, turns an invariant of a step into an invariant of every run.
-/

namespace Transition

variable {State Action : Type} (step : State → Action → Option State)

/-- The states reached from `init` when every step taken satisfies `Allowed`. -/
inductive Reach (Allowed : State → Action → Prop) (init : State) : State → Prop
  | refl : Reach Allowed init init
  | tail {state next : State} (action : Action) (hreach : Reach Allowed init state)
      (hallowed : Allowed state action) (hstep : step state action = some next) :
      Reach Allowed init next

variable {step} {Allowed Weaker : State → Action → Prop} {init state next : State}

theorem Reach.single {action : Action} (hallowed : Allowed init action)
    (hstep : step init action = some next) : Reach step Allowed init next :=
  .tail action .refl hallowed hstep

/-- **The run lemma.** What holds at the start and survives every allowed step holds all along. -/
theorem Reach.invariant (hreach : Reach step Allowed init state) (Inv : State → Prop)
    (hinit : Inv init)
    (hstep : ∀ before action after, Inv before → Allowed before action →
      step before action = some after → Inv after) : Inv state := by
  induction hreach with
  | refl => exact hinit
  | tail action _ hallowed hnext ih => exact hstep _ action _ ih hallowed hnext

/-- The run lemma with an invariant that is already known to hold. -/
theorem Reach.invariant_with {Known : State → Prop} (hreach : Reach step Allowed init state)
    (Inv : State → Prop) (hknown : ∀ {state}, Reach step Allowed init state → Known state)
    (hinit : Inv init)
    (hstep : ∀ before action after, Known before → Inv before → Allowed before action →
      step before action = some after → Inv after) : Inv state := by
  induction hreach with
  | refl => exact hinit
  | tail action hbefore hallowed hnext ih =>
      exact hstep _ action _ (hknown hbefore) ih hallowed hnext

theorem Reach.mono (hreach : Reach step Allowed init state)
    (hweaker : ∀ state action, Allowed state action → Weaker state action) :
    Reach step Weaker init state := by
  induction hreach with
  | refl => exact .refl
  | tail action _ hallowed hnext ih => exact .tail action ih (hweaker _ _ hallowed) hnext

theorem Reach.trans {last : State} (hfirst : Reach step Allowed init state)
    (hsecond : Reach step Allowed state last) : Reach step Allowed init last := by
  induction hsecond with
  | refl => exact hfirst
  | tail action _ hallowed hnext ih => exact .tail action ih hallowed hnext

variable (step) in
/-- The state after a list of actions, each of which has to be enabled. -/
def run (state : State) : List Action → Option State
  | [] => some state
  | action :: rest => (step state action).bind fun next => run next rest

variable (step Allowed) in
/-- Every step of the run satisfies `Allowed` in the state it is taken from. -/
def RunAllowed (state : State) : List Action → Prop
  | [] => True
  | action :: rest => Allowed state action ∧ ∀ next ∈ step state action, RunAllowed next rest

instance RunAllowed.decidable [∀ state action, Decidable (Allowed state action)] (state : State) :
    (actions : List Action) → Decidable (RunAllowed step Allowed state actions)
  | [] => isTrue trivial
  | action :: rest =>
      have : Decidable (∀ next ∈ step state action, RunAllowed step Allowed next rest) :=
        match hstep : step state action with
        | none => isTrue (by simp)
        | some next =>
            have := RunAllowed.decidable next rest
            decidable_of_iff (RunAllowed step Allowed next rest) (by simp)
      inferInstanceAs (Decidable (_ ∧ _))

/-- An executed run is a run: the way a concrete schedule enters the theory. -/
theorem reach_of_run {actions : List Action} (hrun : run step init actions = some state)
    (hallowed : RunAllowed step Allowed init actions) : Reach step Allowed init state := by
  induction actions generalizing init with
  | nil =>
      cases hrun
      exact .refl
  | cons action rest ih =>
      obtain ⟨middle, hfirst, hrest⟩ := Option.bind_eq_some_iff.mp hrun
      exact (Reach.single hallowed.1 hfirst).trans (ih hrest (hallowed.2 middle hfirst))

theorem runAllowed_true {actions : List Action} :
    RunAllowed step (fun _ _ => True) init actions := by
  induction actions generalizing init with
  | nil => trivial
  | cons action rest ih => exact ⟨trivial, fun _ _ => ih⟩

/-- With no condition on the steps, executing the run is enough. -/
theorem reach_of_run_all {actions : List Action} (hrun : run step init actions = some state) :
    Reach step (fun _ _ => True) init state :=
  reach_of_run hrun runAllowed_true

/-! ### Prefixes of a run -/

theorem run_append (first second : List Action) :
    run step init (first ++ second) =
      (run step init first).bind fun middle => run step middle second := by
  induction first generalizing init with
  | nil => rfl
  | cons action rest ih =>
      simp only [List.cons_append, run, ih, Option.bind_assoc]

theorem run_concat {actions : List Action} (hrun : run step init actions = some state)
    (action : Action) : run step init (actions ++ [action]) = step state action := by
  rw [run_append, hrun]
  simp [run]

theorem runAllowed_append {first second : List Action} (hrun : run step init first = some state) :
    RunAllowed step Allowed init (first ++ second) ↔
      RunAllowed step Allowed init first ∧ RunAllowed step Allowed state second := by
  induction first generalizing init with
  | nil =>
      cases hrun
      simp [RunAllowed]
  | cons action rest ih =>
      obtain ⟨middle, hfirst, hrest⟩ := Option.bind_eq_some_iff.mp hrun
      simp only [List.cons_append, RunAllowed, hfirst, Option.mem_def, Option.some.injEq,
        forall_eq', ih hrest, and_assoc]

/-- The run lemma for a property of the state and of the actions that led to it. -/
theorem run_invariant {Holds : List Action → State → Prop} (hinit : Holds [] init)
    (hstep : ∀ done before action after, Holds done before → Allowed before action →
      step before action = some after → Holds (done ++ [action]) after)
    {actions : List Action} (hrun : run step init actions = some state)
    (hallowed : RunAllowed step Allowed init actions) : Holds actions state := by
  induction actions using List.reverseRecOn generalizing state with
  | nil =>
      cases hrun
      exact hinit
  | append_singleton actions action ih =>
      rw [run_append, Option.bind_eq_some_iff] at hrun
      obtain ⟨before, hbefore, hlast⟩ := hrun
      obtain ⟨hfirst, hthen⟩ := (runAllowed_append hbefore).mp hallowed
      refine hstep actions before action state (ih hbefore hfirst) hthen.1 ?_
      simpa [run] using hlast

/-- **The run lemma for an exact condition.** When a step keeps a property of runs just if it is
allowed, then the property holds all along a run just if all its steps are allowed. -/
theorem runAllowed_iff {Holds : List Action → State → Prop} (hinit : Holds [] init)
    (hstep : ∀ done before action after, run step init done = some before → Holds done before →
      step before action = some after → (Holds (done ++ [action]) after ↔ Allowed before action))
    {actions : List Action} (hrun : run step init actions = some state) :
    (∀ done middle, done <+: actions → run step init done = some middle → Holds done middle) ↔
      RunAllowed step Allowed init actions := by
  induction actions using List.reverseRecOn generalizing state with
  | nil =>
      constructor
      · intro _
        trivial
      · intro _ done middle hpref hmiddle
        obtain rfl := List.prefix_nil.mp hpref
        cases hmiddle
        exact hinit
  | append_singleton actions action ih =>
      rw [run_append, Option.bind_eq_some_iff] at hrun
      obtain ⟨before, hbefore, hlast⟩ := hrun
      have hnext : step before action = some state := by
        simpa [run] using hlast
      rw [runAllowed_append hbefore, ← ih hbefore]
      have hall : RunAllowed step Allowed before [action] ↔ Allowed before action := by
        simp [RunAllowed]
      rw [hall]
      constructor
      · intro hholds
        have hdone : ∀ done middle, done <+: actions → run step init done = some middle →
            Holds done middle := fun done middle hpref =>
          hholds done middle (hpref.trans (List.prefix_append _ _))
        refine ⟨hdone, (hstep actions before action state hbefore
          (hdone _ _ List.prefix_rfl hbefore) hnext).mp ?_⟩
        exact hholds _ _ List.prefix_rfl ((run_concat hbefore action).trans hnext)
      · rintro ⟨hdone, hallowed⟩ done middle hpref hmiddle
        rcases List.prefix_concat_iff.mp hpref with rfl | hpref
        · obtain rfl : middle = state :=
            Option.some.inj (hmiddle.symm.trans ((run_concat hbefore action).trans hnext))
          exact (hstep actions before action middle hbefore
            (hdone _ _ List.prefix_rfl hbefore) hnext).mpr hallowed
        · exact hdone done middle hpref hmiddle

end Transition
