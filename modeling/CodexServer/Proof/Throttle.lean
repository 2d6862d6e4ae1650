import Mathlib.Tactic.Linarith
import CodexServer.Throttle
import CodexServer.Proof.RateLimit

/-!
# The barrier over whole runs

The lockout after the fifth failure always holds. The window does not slide with the failures before
it, and some failures are not counted at all: where neither matters, no more than five attempts fail
in a quarter of an hour.
-/

open Transition

namespace CodexServer.Throttle

open RateLimit (Counter incr alive)
open Registration (Env)

/-! ### Clusters of failures -/

/-- The interval that ends with `instant` counts one of two lists that are an interval apart. -/
theorem countP_apart {span : ℚ} {old new : List ℚ} (instant : ℚ)
    (hapart : ∀ first ∈ old, ∀ second ∈ new, first + span ≤ second) :
    (old ++ new).countP (fun time => instant - span < time ∧ time ≤ instant) ≤
      max (old.countP fun time => instant - span < time ∧ time ≤ instant) new.length := by
  rw [List.countP_append]
  by_cases hnew : ∃ second ∈ new, second ≤ instant
  · obtain ⟨second, hsecond, hle⟩ := hnew
    have hold : old.countP (fun time => instant - span < time ∧ time ≤ instant) = 0 := by
      refine List.countP_eq_zero.mpr fun first hfirst hin => ?_
      have := hapart first hfirst second hsecond
      linarith [(of_decide_eq_true hin).1]
    rw [hold, zero_add]
    exact le_max_of_le_right List.countP_le_length
  · have hzero : new.countP (fun time => instant - span < time ∧ time ≤ instant) = 0 := by
      refine List.countP_eq_zero.mpr fun second hsecond hin => ?_
      exact hnew ⟨second, hsecond, (of_decide_eq_true hin).2⟩
    rw [hzero, add_zero]
    exact le_max_left _ _

section

variable {env : Env} {verify : String → Option String → Bool} {state next : State}

/-! ### The key -/

theorem barred_iff {key : Option Counter} :
    barred key = true ↔ ∃ counter, key = some counter ∧ 5 ≤ counter.value := by
  cases key with
  | none => simp [barred]
  | some counter =>
      constructor
      · intro hbarred
        exact ⟨counter, rfl, of_decide_eq_true hbarred⟩
      · rintro ⟨_, ⟨⟩, hvalue⟩
        exact decide_eq_true hvalue

/-- The count goes up by one, and the fifth failure prolongs it. -/
theorem registerFailure_eq (clock : ℚ) (key : Option Counter) :
    ∃ counter, registerFailure clock key = some counter ∧
      counter.value = RateLimit.valueOf key + 1 ∧
      (5 ≤ counter.value → counter.deadline = some (clock + lockout)) := by
  have hsome : ∃ counter, (incr key).2 = some counter ∧
      counter.value = RateLimit.valueOf key + 1 := by
    cases key with
    | none => exact ⟨_, rfl, rfl⟩
    | some counter => exact ⟨_, rfl, rfl⟩
  have hcount : (incr key).1 = RateLimit.valueOf key + 1 := RateLimit.incrBy_fst 1 key
  obtain ⟨counter, hcounter, hvalue⟩ := hsome
  simp only [registerFailure, hcount, hcounter]
  by_cases hfirst : RateLimit.valueOf key + 1 = 1
  · refine ⟨_, if_pos hfirst, hvalue, fun hfive => ?_⟩
    have hone : counter.value = 1 := hvalue.trans hfirst
    simp only [Counter.expireAt, hone] at hfive
    omega
  · by_cases hfifth : maxAttempts ≤ RateLimit.valueOf key + 1
    · refine ⟨counter.expireAt (clock + lockout), ?_, hvalue, fun _ => rfl⟩
      simp [hfirst, hfifth]
    · refine ⟨counter, ?_, hvalue, fun hfive => ?_⟩
      · simp [hfirst, hfifth]
      · exact absurd (hvalue ▸ hfive) hfifth

/-! ### The lockout -/

/-- A fifth failure bars the address, unless it is a quarter of an hour ago. -/
def Locked (state : State) : Prop :=
  ∀ time ∈ state.fifths, time + lockout ≤ state.clock ∨
    ∃ counter deadline, state.key = some counter ∧ 5 ≤ counter.value ∧
      counter.deadline = some deadline ∧ time + lockout ≤ deadline

theorem Locked.barred (h : Locked state) {time : ℚ} (htime : time ∈ state.fifths)
    (hsoon : state.clock < time + lockout) : barred state.key = true := by
  rcases h time htime with hlate | ⟨counter, deadline, hkey, hvalue, -, -⟩
  · exact absurd hlate (not_le.mpr hsoon)
  · exact barred_iff.mpr ⟨counter, hkey, hvalue⟩

/-- When the check lets an attempt pass, every lockout is over. -/
theorem Locked.over (h : Locked state) (hfree : Throttle.barred state.key = false) {time : ℚ}
    (htime : time ∈ state.fifths) : time + lockout ≤ state.clock := by
  by_contra hsoon
  rw [h.barred htime (not_le.mp hsoon)] at hfree
  cases hfree

theorem Locked.step (h : Locked state) {action : Action}
    (hstep : step env verify state action = some next) : Locked next := by
  cases action with
  | elapse duration =>
      simp only [Throttle.step] at hstep
      split at hstep
      · rename_i hpos
        cases hstep
        intro time htime
        rcases h time htime with hlate | ⟨counter, deadline, hkey, hvalue, hdeadline, hle⟩
        · left
          exact hlate.trans (le_add_of_nonneg_right hpos)
        · by_cases halive : state.clock + duration < deadline
          · right
            refine ⟨counter, deadline, ?_, hvalue, hdeadline, hle⟩
            simp [hkey, Option.filter, alive, hdeadline, halive]
          · left
            exact hle.trans (not_lt.mp halive)
      · cases hstep
  | attempt attempt =>
      simp only [Throttle.step] at hstep
      split at hstep
      · cases hstep
        exact h
      · rename_i hfree
        cases hstep
        have hover : ∀ time ∈ state.fifths, time + lockout ≤ state.clock :=
          fun time htime => h.over (Bool.eq_false_iff.mpr hfree) htime
        intro time htime
        simp only at htime
        split at htime
        · rename_i hbarred
          rcases List.mem_append.mp htime with hold | hnew
          · exact .inl (hover time hold)
          · right
            obtain rfl := List.mem_singleton.mp hnew
            obtain ⟨counter, hcounter, hvalue⟩ := barred_iff.mp hbarred
            refine ⟨counter, state.clock + lockout, hcounter, hvalue, ?_, le_rfl⟩
            -- Only `register_failure` makes the count reach five.
            unfold countAttempt at hcounter
            split at hcounter
            · cases hcounter
            · split at hcounter
              · obtain ⟨other, hother, -, hprolonged⟩ := registerFailure_eq state.clock state.key
                cases hcounter.symm.trans hother
                exact hprolonged hvalue
              · exact absurd (barred_iff.mpr ⟨counter, hcounter, hvalue⟩) hfree
        · exact .inl (hover time htime)

/-! ### The window -/

/-- An attempt that fails is one that is counted, and it begins a count only when nothing has failed
for a quarter of an hour. -/
def slides (env : Env) (verify : String → Option String → Bool) (state : State) : Action → Bool
  | .elapse _ => true
  | .attempt attempt => barred state.key || (attempt.failure env verify).all fun failure =>
      failure.counted &&
        (state.key.isSome || state.failures.all fun time => time + window ≤ state.clock)

/-- The failures that the key counts are an interval away from those before them. -/
structure Counted (state : State) : Prop where
  capped : ∀ instant, state.failedIn instant ≤ 5
  past : ∀ time ∈ state.failures, time ≤ state.clock
  cluster : ∀ counter, state.key = some counter → ∃ old new, state.failures = old ++ new ∧
    new ≠ [] ∧ (new.length : Int) = counter.value ∧
    ∀ first ∈ old, ∀ second ∈ new, first + window ≤ second

/-- One more failure joins the cluster of the key. -/
theorem Counted.join (h : Counted state) {old new : List ℚ} {key : Option Counter}
    (hold : ∀ instant, old.countP (fun time => instant - window < time ∧ time ≤ instant) ≤ 5)
    (hfailures : state.failures = old ++ new) (hfew : new.length < 5)
    (hapart : ∀ first ∈ old, ∀ second ∈ new ++ [state.clock], first + window ≤ second)
    (hkey : ∀ counter, key = some counter → counter.value = new.length + 1) (fifths : List ℚ) :
    Counted ⟨state.clock, key, state.failures ++ [state.clock], fifths⟩ := by
  have happend : state.failures ++ [state.clock] = old ++ (new ++ [state.clock]) := by
    rw [hfailures, List.append_assoc]
  refine ⟨fun instant => ?_, fun time htime => ?_, fun counter hcounter => ?_⟩
  · simp only [State.failedIn, happend]
    have hlength : (new ++ [state.clock]).length ≤ 5 := by
      simp only [List.length_append, List.length_singleton]
      omega
    exact (countP_apart instant hapart).trans (max_le (hold instant) hlength)
  · rcases List.mem_append.mp htime with hbefore | hnow
    · exact h.past time hbefore
    · exact (List.mem_singleton.mp hnow).le
  · refine ⟨old, new ++ [state.clock], happend, by simp, ?_, hapart⟩
    rw [hkey counter hcounter]
    simp

theorem Counted.attempt (h : Counted state) {attempt : Attempt}
    (hallowed : slides env verify state (.attempt attempt) = true)
    (hstep : Throttle.step env verify state (.attempt attempt) = some next) : Counted next := by
  simp only [Throttle.step] at hstep
  split at hstep
  · cases hstep
    exact h
  · rename_i hfree
    cases hstep
    simp only [slides, hfree, Bool.false_or] at hallowed
    cases hfailure : attempt.failure env verify with
    | none =>
        refine ⟨fun instant => ?_, ?_, ?_⟩
        · simp [State.failedIn]
        · simp
        · simp [countAttempt, hfailure]
    | some failure =>
        simp only [hfailure, Option.all_some, Bool.and_eq_true] at hallowed
        obtain ⟨hcounted, hspaced⟩ := hallowed
        have hkey : countAttempt env verify state.clock state.key attempt =
            registerFailure state.clock state.key := by
          simp [countAttempt, hfailure, hcounted]
        obtain ⟨counter, hcounter, hvalue, -⟩ := registerFailure_eq state.clock state.key
        simp only [hkey, Option.isNone_some, Bool.false_eq_true, if_false]
        cases hold : state.key with
        | none =>
            have hapart : ∀ time ∈ state.failures, time + window ≤ state.clock := by
              simpa [hold] using hspaced
            refine h.join h.capped (List.append_nil _).symm (by simp) ?_ ?_ _
            · intro first hfirst second hsecond
              obtain rfl := List.mem_singleton.mp hsecond
              exact hapart first hfirst
            · intro other hother
              rw [hold] at hcounter hvalue
              cases hcounter.symm.trans hother
              simpa [RateLimit.valueOf] using hvalue
        | some before =>
            obtain ⟨old, new, hfailures, hne, hlength, hapart⟩ := h.cluster before hold
            have hfew : before.value < 5 := by
              by_contra hmany
              exact hfree (barred_iff.mpr ⟨before, hold, by omega⟩)
            refine h.join (fun instant => ?_) hfailures (by omega) ?_ ?_ _
            · have hall := h.capped instant
              simp only [State.failedIn, hfailures, List.countP_append] at hall
              omega
            · intro first hfirst second hsecond
              rcases List.mem_append.mp hsecond with hbefore | hnow
              · exact hapart first hfirst second hbefore
              · obtain rfl := List.mem_singleton.mp hnow
                obtain ⟨middle, hmiddle⟩ := List.exists_mem_of_ne_nil new hne
                have hpast := h.past middle (hfailures ▸ List.mem_append_right _ hmiddle)
                exact (hapart first hfirst middle hmiddle).trans hpast
            · intro other hother
              rw [hold] at hcounter hvalue
              cases hcounter.symm.trans hother
              rw [hvalue, hlength]
              rfl

theorem Counted.step (h : Counted state) {action : Action}
    (hallowed : slides env verify state action = true)
    (hstep : step env verify state action = some next) : Counted next := by
  cases action with
  | elapse duration =>
      simp only [Throttle.step] at hstep
      split at hstep
      · rename_i hpos
        cases hstep
        refine ⟨h.capped, fun time htime => ?_, fun counter hcounter => ?_⟩
        · exact (h.past time htime).trans (le_add_of_nonneg_right hpos)
        · exact h.cluster counter (Option.filter_eq_some_iff.mp hcounter).1
      · cases hstep
  | attempt attempt => exact h.attempt hallowed hstep

/-- At most five attempts fail in a quarter of an hour, and for a quarter of an hour after the fifth
none gets past the check. -/
structure Barrier (state : State) : Prop where
  capped : ∀ instant, state.failedIn instant ≤ 5
  lockout : ∀ time ∈ state.fifths, state.clock < time + Throttle.lockout → barred state.key = true

/-- **The brute-force barrier.** It holds when every attempt that fails is counted, and none begins
a new count within a quarter of an hour of another failure. -/
theorem brute_force_window (env : Env) (verify : String → Option String → Bool)
    (hreach : Reach (step env verify) (fun state action => slides env verify state action = true)
      State.init state) : Barrier state := by
  have hcounted : Counted state := by
    refine hreach.invariant Counted ⟨fun _ => Nat.zero_le _, nofun, nofun⟩ ?_
    intro before action after h hallowed hstep
    exact h.step hallowed hstep
  have hlocked : Locked state := by
    refine hreach.invariant Locked nofun ?_
    intro before action after h _ hstep
    exact h.step hstep
  exact ⟨hcounted.capped, fun _ htime hsoon => hlocked.barred htime hsoon⟩

end

/-- Addresses are taken as they are. -/
def anyEmail : Env := ⟨some, fun text => text, ""⟩

/-- A login with an email that nobody has. -/
def wrongLogin : Action := .attempt (.login none "secret")

/-- A registration with an invite that does not exist. -/
def wrongInvite : Action :=
  .attempt (.register "ann@example.org" "password" "ticket" "" none (some .notFound))

/-- Five failures, and a sixth attempt that is refused. -/
theorem brute_force_window_sixth_refused :
    ∃ state, run (step anyEmail fun _ _ => false) State.init
        [wrongLogin, wrongLogin, .elapse 60, wrongLogin, wrongLogin, wrongLogin, wrongLogin] =
          some state ∧ Barrier state := by
  have hallowed : RunAllowed (step anyEmail fun _ _ => false)
      (fun state action => slides anyEmail (fun _ _ => false) state action = true) State.init
      [wrongLogin, wrongLogin, .elapse 60, wrongLogin, wrongLogin, wrongLogin, wrongLogin] := by
    decide +kernel
  have hruns : (run (step anyEmail fun _ _ => false) State.init
      [wrongLogin, wrongLogin, .elapse 60, wrongLogin, wrongLogin, wrongLogin,
        wrongLogin]).isSome = true := by decide +kernel
  obtain ⟨state, hrun⟩ := Option.isSome_iff_exists.mp hruns
  exact ⟨state, hrun, brute_force_window anyEmail (fun _ _ => false) (reach_of_run hrun hallowed)⟩

/-- The count begins with the first failure and ends a quarter of an hour after it, whatever failed
in between: seven attempts fail within a second. A registration with a wrong invite is not counted
at all. -/
theorem brute_force_window_fixed :
    (run (step anyEmail fun _ _ => false) State.init
      [wrongLogin, .elapse 899, wrongLogin, wrongLogin, wrongLogin, .elapse 1, wrongLogin,
        wrongLogin, wrongLogin, wrongLogin]).any (fun state => state.failedIn 900 = 7) = true ∧
      (run (step anyEmail fun _ _ => false) State.init
        [wrongInvite, wrongInvite, wrongInvite, wrongInvite, wrongInvite, wrongInvite]).any
        (fun state => state.failedIn 0 = 6 && state.key = none) = true := by
  constructor <;> decide +kernel

end CodexServer.Throttle
