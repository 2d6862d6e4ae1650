import CodexServer.RateLimit

/-!
# The active counter and the reservations

The counter is the number of reservations that are held as long as nobody reserves between the two
commands of a release and the key does not expire under a reservation. Both conditions are needed.
-/

open Transition

namespace CodexServer.RateLimit

/-! ### The keys -/

/-- A key that is not there counts as zero. -/
def valueOf (key : Option Counter) : Int := key.elim 0 Counter.value

theorem incrBy_fst (amount : Int) (key : Option Counter) :
    (incrBy amount key).1 = valueOf key + amount := by
  cases key with
  | none => exact (zero_add amount).symm
  | some counter => rfl

theorem valueOf_incrBy (amount : Int) (key : Option Counter) :
    valueOf (incrBy amount key).2 = valueOf key + amount := by
  cases key with
  | none => exact (zero_add amount).symm
  | some counter => rfl

theorem valueOf_beginActive (clock : ℚ) (key : Option Counter) :
    valueOf (beginActive clock key).2 = valueOf key + 1 := by
  have hincr := valueOf_incrBy 1 key
  simp only [beginActive, incr]
  by_cases hone : (incrBy 1 key).1 = 1
  · simp only [hone, if_true]
    cases hkey : (incrBy 1 key).2 with
    | none =>
        rw [← hincr, hkey]
        rfl
    | some counter =>
        rw [← hincr, hkey]
        rfl
  · simp only [hone, if_false]
    exact hincr

section

variable {kind : UserKind} {settings : RuntimeSettings} {reading : ℚ} {state : State}

/-- **Who is admitted.** -/
theorem admits_iff (hkind : kind ≠ .admin) : state.admits kind settings reading = true ↔
    hourlyReached (settings.turnLimits kind) reading state.keys = false ∧
      (0 < (settings.turnLimits kind).active →
        state.active + 1 ≤ (settings.turnLimits kind).active) := by
  have hincr : (beginActive state.clock state.keys.active).1 = state.active + 1 :=
    incrBy_fst 1 state.keys.active
  unfold State.admits reserveTurn reserveScript
  simp only [hkind, if_false, hincr]
  by_cases hhourly : hourlyReached (settings.turnLimits kind) reading state.keys = true
  · simp [hhourly]
  · by_cases hactive : 0 < (settings.turnLimits kind).active ∧
        ((settings.turnLimits kind).active : Int) < state.active + 1
    · refine iff_of_false ?_ fun hfree => ?_
      · simp [hhourly, hactive]
      · have := hfree.2 hactive.1
        omega
    · refine iff_of_true ?_ ⟨by simpa using hhourly, fun hlimit => by omega⟩
      simp only [hhourly, hactive, Bool.false_eq_true, if_false]

theorem reserve_admitted (hkind : kind ≠ .admin)
    (h : state.admits kind settings reading = true) :
    (reserveTurn kind settings reading state.clock state.keys).2.active =
      (beginActive state.clock state.keys.active).2 := by
  obtain ⟨hhourly, hactive⟩ := (admits_iff hkind).mp h
  have hincr : (beginActive state.clock state.keys.active).1 = state.active + 1 :=
    incrBy_fst 1 state.keys.active
  unfold reserveTurn reserveScript
  have hfree : ¬(0 < (settings.turnLimits kind).active ∧
      ((settings.turnLimits kind).active : Int) < state.active + 1) := by
    intro hfull
    have := hactive hfull.1
    omega
  simp only [hkind, hhourly, hincr, hfree, Bool.false_eq_true, if_false]

/-- A refusal leaves the counter as it was. -/
theorem reserve_refused (hkind : kind ≠ .admin)
    (h : state.admits kind settings reading = false) :
    (reserveTurn kind settings reading state.clock state.keys).2.active = state.keys.active := by
  have hincr : (beginActive state.clock state.keys.active).1 = state.active + 1 :=
    incrBy_fst 1 state.keys.active
  unfold reserveTurn reserveScript
  by_cases hhourly : hourlyReached (settings.turnLimits kind) reading state.keys = true
  · simp [hkind, hhourly]
  · have hfull : 0 < (settings.turnLimits kind).active ∧
        ((settings.turnLimits kind).active : Int) < state.active + 1 := by
      by_contra hfree
      have hadmitted : state.admits kind settings reading = true := (admits_iff hkind).mpr
        ⟨by simpa using hhourly, fun hlimit => by omega⟩
      simp [h] at hadmitted
    simp only [hkind, hhourly, hincr, hfull, and_self, Bool.false_eq_true, if_false, if_true]
    -- Somebody holds a reservation, so the key is there and has its deadline.
    cases hkey : state.keys.active with
    | none =>
        have hzero : state.active = 0 := by simp [State.active, hkey]
        omega
    | some counter =>
        have hvalue : state.active = counter.value := by simp [State.active, hkey]
        have hone : counter.value + 1 ≠ 1 := by omega
        simp [beginActive, incr, decr, incrBy, hone]

/-! ### The reservations -/

theorem count_set_add {reservations : List Reservation} {id : Nat} {before : Reservation}
    (after item : Reservation) (hbefore : reservations[id]? = some before) :
    (reservations.set id after).count item + (if before = item then 1 else 0) =
      reservations.count item + (if after = item then 1 else 0) := by
  obtain ⟨hid, hget⟩ := List.getElem?_eq_some_iff.mp hbefore
  have hcount := List.count_set (a := after) (b := item) hid
  have hpos : before = item → 0 < reservations.count item := by
    rintro rfl
    exact List.count_pos_iff.mpr (List.mem_of_getElem? hbefore)
  simp only [hget, beq_iff_eq] at hcount
  rw [hcount]
  split <;> rename_i hitem
  · have := hpos hitem
    omega
  · omega

/-- A release gives up one of the reservations that are held. -/
theorem outstanding_released {id : Nat} (after : Reservation)
    (hheld : state.reservations[id]? = some .held) (hafter : after ≠ .held) :
    (state.reservations.set id after).count .held + 1 = state.outstanding := by
  have hcount := count_set_add after .held hheld
  simpa [hafter, State.outstanding] using hcount

/-- The end of a release is not the end of a reservation. -/
theorem outstanding_closed {id : Nat} (hclosing : state.reservations[id]? = some .closing) :
    (state.reservations.set id .released).count .held = state.outstanding := by
  have hcount := count_set_add .released .held hclosing
  simpa [State.outstanding] using hcount

/-- A counter at zero may expire: it counts nothing. -/
theorem valueOf_expire {keys : Keys} {now : ℚ} (hzero : valueOf keys.active = 0) :
    valueOf (keys.expire now).active = 0 := by
  cases hkey : keys.active with
  | none => simp [Keys.expire, hkey, valueOf]
  | some counter =>
      have hvalue : counter.value = 0 := by simpa [hkey, valueOf] using hzero
      cases halive : alive now counter.deadline <;>
        simp [Keys.expire, hkey, Option.filter, halive, valueOf, hvalue]

theorem isClosing_iff : state.isClosing = true ↔ .closing ∈ state.reservations := by
  simp [State.isClosing]

/-! ### No reservation between the two commands of a release -/

/-- The counter of the turns that are alive does not expire under one of them, and a reserve script
that finds a release between its two commands is one that the hourly limit refuses. -/
def undisturbed (kind : UserKind) (settings : RuntimeSettings) (state : State) : Action → Bool
  | .elapse duration =>
      state.outstanding = 0 ||
        (state.keys.expire (state.clock + duration)).active = state.keys.active
  | .reserve reading =>
      !state.isClosing || hourlyReached (settings.turnLimits kind) reading state.keys
  | .decr _ | .delete _ | .release _ => true

/-- The counter counts, and while a release is to delete it there is nothing to count. -/
structure Exact (state : State) : Prop where
  counted : state.active = state.outstanding
  closing : state.isClosing = true → state.outstanding = 0

theorem Exact.reserve (h : Exact state) (hkind : kind ≠ .admin)
    (hallowed : undisturbed kind settings state (.reserve reading) = true) {next : State}
    (hstep : step kind settings state (.reserve reading) = some next) : Exact next := by
  simp only [step] at hstep
  cases hadmits : state.admits kind settings reading with
  | true =>
      simp only [hadmits, if_true, Option.some.injEq] at hstep
      subst hstep
      have hopen : state.isClosing = false := by
        have hhourly := ((admits_iff hkind).mp hadmits).1
        simpa [undisturbed, hhourly] using hallowed
      constructor
      · have hvalue := valueOf_beginActive state.clock state.keys.active
        have hcounted : valueOf state.keys.active = state.outstanding := h.counted
        simp only [State.active, State.outstanding, reserve_admitted hkind hadmits,
          List.count_append, List.count_singleton_self, Nat.cast_add, Nat.cast_one]
        exact hvalue.trans (congrArg (· + 1) hcounted)
      · intro hclosing
        simp only [State.isClosing, List.contains_eq_mem, List.mem_append, List.mem_singleton,
          reduceCtorEq, or_false, decide_eq_true_eq] at hclosing
        simp [isClosing_iff.mpr hclosing] at hopen
  | false =>
      simp only [hadmits, Bool.false_eq_true, if_false, Option.some.injEq] at hstep
      subst hstep
      refine ⟨?_, h.closing⟩
      simp only [State.active, reserve_refused hkind hadmits]
      exact h.counted

theorem Exact.decr (h : Exact state) (hkind : kind ≠ .admin) {id : Nat} {next : State}
    (hstep : step kind settings state (.decr id) = some next) : Exact next := by
  simp only [step] at hstep
  split at hstep
  · rename_i hheld
    have hvalue := valueOf_incrBy (-1) state.keys.active
    have hfst := incrBy_fst (-1) state.keys.active
    have hcounted : valueOf state.keys.active = state.outstanding := h.counted
    simp only [releaseDecr, hkind, if_false, RateLimit.decr, hfst, Option.some.injEq] at hstep
    subst hstep
    by_cases hlast : valueOf state.keys.active + -1 ≤ 0
    · have hcount := outstanding_released .closing hheld (by decide)
      simp only [hlast, decide_true, if_true]
      constructor
      · simp only [State.active, State.outstanding]
        change valueOf _ = _
        omega
      · intro _
        simp only [State.outstanding]
        omega
    · have hcount := outstanding_released .released hheld (by decide)
      simp only [hlast, decide_false, Bool.false_eq_true, if_false]
      constructor
      · simp only [State.active, State.outstanding]
        change valueOf _ = _
        omega
      · intro hclosing
        have hmem := List.mem_or_eq_of_mem_set (isClosing_iff.mp hclosing)
        have hold := h.closing (isClosing_iff.mpr (hmem.resolve_right (by decide)))
        omega
  · cases hstep

theorem Exact.delete (h : Exact state) {id : Nat} {next : State}
    (hstep : step kind settings state (.delete id) = some next) : Exact next := by
  simp only [step] at hstep
  split at hstep
  · rename_i hclosing
    cases hstep
    have hnone := h.closing (isClosing_iff.mpr (List.mem_of_getElem? hclosing))
    have hcount := (outstanding_closed hclosing).trans hnone
    constructor
    · simp only [State.active, State.outstanding, releaseDelete, Option.elim_none, hcount]
      rfl
    · intro _
      exact hcount
  · cases hstep

/-- What is left of the counter by a release in one step. -/
theorem releaseTurn_active (hkind : kind ≠ .admin) (keys : Keys) :
    (releaseTurn kind keys).active =
      if valueOf keys.active ≤ 1 then none else (decr keys.active).2 := by
  have hfst := incrBy_fst (-1) keys.active
  unfold releaseTurn
  simp only [releaseDecr, hkind, if_false, decr, hfst, decide_eq_true_eq]
  by_cases hlast : valueOf keys.active + -1 ≤ 0
  · simp only [hlast, if_true, releaseDelete, show valueOf keys.active ≤ 1 by omega]
  · simp only [hlast, if_false, show ¬valueOf keys.active ≤ 1 by omega]

theorem Exact.release (h : Exact state) (hkind : kind ≠ .admin) {id : Nat} {next : State}
    (hstep : step kind settings state (.release id) = some next) : Exact next := by
  simp only [step] at hstep
  split at hstep
  · rename_i hheld
    cases hstep
    have hcounted : valueOf state.keys.active = state.outstanding := h.counted
    have hcount := outstanding_released .released hheld (by decide)
    have hvalue := valueOf_incrBy (-1) state.keys.active
    constructor
    · simp only [State.active, State.outstanding, releaseTurn_active hkind]
      split
      · have hnone : (state.reservations.set id .released).count .held = 0 := by omega
        rw [hnone]
        rfl
      · change valueOf _ = _
        simp only [RateLimit.decr]
        omega
    · intro hclosing
      have hmem := List.mem_or_eq_of_mem_set (isClosing_iff.mp hclosing)
      have hold := h.closing (isClosing_iff.mpr (hmem.resolve_right (by decide)))
      omega
  · cases hstep

theorem Exact.step (h : Exact state) (hkind : kind ≠ .admin) {action : Action}
    (hallowed : undisturbed kind settings state action = true) {next : State}
    (hstep : step kind settings state action = some next) : Exact next := by
  cases action with
  | elapse duration =>
      simp only [RateLimit.step] at hstep
      split at hstep
      · cases hstep
        refine ⟨?_, h.closing⟩
        rcases (by simpa [undisturbed] using hallowed : state.outstanding = 0 ∨ _) with hnone | hkeys
        · have hzero : valueOf state.keys.active = state.outstanding := h.counted
          exact (valueOf_expire (by omega)).trans (congrArg Nat.cast hnone.symm)
        · exact (congrArg valueOf hkeys).trans h.counted
      · cases hstep
  | reserve reading => exact h.reserve hkind hallowed hstep
  | decr id => exact h.decr hkind hstep
  | delete id => exact h.delete hstep
  | release id => exact h.release hkind hstep

/-- **The active counter is exact.** When it does not expire under a turn and no reserve script that
the hourly limit lets through comes between the two commands of a release, the counter is the number
of reservations that are not released, never negative, and a reserve is admitted just when there are
fewer of them than the limit and the hourly limit allows it. -/
theorem active_counter_exact (hkind : kind ≠ .admin)
    (hreach : Reach (step kind settings) (fun state action =>
      undisturbed kind settings state action = true) State.init state) :
    state.active = state.outstanding ∧ 0 ≤ state.active ∧
      (0 < (settings.turnLimits kind).active → ∀ reading,
        (state.admits kind settings reading = true ↔
          state.outstanding < (settings.turnLimits kind).active ∧
            hourlyReached (settings.turnLimits kind) reading state.keys = false)) := by
  have hexact : Exact state := by
    refine hreach.invariant Exact ⟨rfl, nofun⟩ ?_
    exact fun before action after h hallowed hstep => h.step hkind hallowed hstep
  have hcounted := hexact.counted
  refine ⟨hcounted, by omega, fun hlimit reading => ?_⟩
  rw [admits_iff hkind, and_comm]
  exact and_congr_left fun _ => ⟨fun h => by have := h hlimit; omega, fun h _ => by omega⟩

/-- A web user with two turns at a time, and a Telegram guest with one. -/
def twoAndOne : RuntimeSettings := ⟨⟨2, 0⟩, ⟨1, 0⟩, 20⟩

theorem active_counter_exact_two_reservations : ∃ state,
    run (step .webUser twoAndOne) State.init [.reserve 0, .reserve 1, .decr 0] = some state ∧
      state.active = 1 ∧ state.outstanding = 1 := by
  have hallowed : RunAllowed (step .webUser twoAndOne) (fun state action =>
      undisturbed .webUser twoAndOne state action = true) State.init
      [.reserve 0, .reserve 1, .decr 0] := by decide
  exact ⟨_, rfl, (active_counter_exact (by decide) (reach_of_run rfl hallowed)).1, rfl⟩

/-- The reservation that comes between the `DECR` and the `DELETE` of another one is not counted. -/
theorem active_counter_undercounts : ∃ state,
    run (step .webUser twoAndOne) State.init [.reserve 0, .decr 0, .reserve 1, .delete 0] =
      some state ∧ state.isClosing = false ∧ state.active = 0 ∧ state.outstanding = 1 :=
  ⟨_, rfl, rfl, rfl, rfl⟩

/-! ### The key does not expire under a reservation -/

/-- Releases are atomic, and no busy period is as long as the life of the counter. -/
def briefly (state : State) : Action → Bool
  | .elapse duration =>
      state.outstanding = 0 || decide (state.clock + duration < state.busySince + activeTtl)
  | .reserve _ | .release _ => true
  | .decr _ | .delete _ => false

/-- The counter lives since the first of the reservations that are held, and only then. -/
structure Timed (state : State) : Prop extends Exact state where
  closed : state.isClosing = false
  present : state.outstanding ≠ 0 → ∃ counter, state.keys.active = some counter ∧
    counter.deadline = some (state.busySince + activeTtl)
  absent : state.outstanding = 0 → state.keys.active = none

theorem Timed.elapse (h : Timed state) {duration : ℚ}
    (hallowed : briefly state (.elapse duration) = true) {next : State}
    (hstep : step kind settings state (.elapse duration) = some next) : Timed next := by
  simp only [step] at hstep
  split at hstep
  · cases hstep
    have hkept : (state.keys.expire (state.clock + duration)).active = state.keys.active := by
      by_cases hnone : state.outstanding = 0
      · simp [Keys.expire, h.absent hnone]
      · obtain ⟨counter, hcounter, hdeadline⟩ := h.present hnone
        have hbrief : state.clock + duration < state.busySince + activeTtl := by
          simpa [briefly, hnone] using hallowed
        simp [Keys.expire, hcounter, alive, hdeadline, hbrief]
    refine ⟨⟨?_, h.closing⟩, h.closed, fun hheld => ?_, fun hnone => ?_⟩
    · simp only [State.active, hkept]
      exact h.counted
    · simp only [hkept]
      exact h.present hheld
    · simp only [hkept]
      exact h.absent hnone
  · cases hstep

theorem Timed.reserve (h : Timed state) (hkind : kind ≠ .admin) {next : State}
    (hstep : step kind settings state (.reserve reading) = some next) : Timed next := by
  have hexact : Exact next :=
    h.toExact.reserve hkind (by simp [undisturbed, h.closed]) hstep
  simp only [step] at hstep
  cases hadmits : state.admits kind settings reading with
  | true =>
      simp only [hadmits, if_true, Option.some.injEq] at hstep
      subst hstep
      refine ⟨hexact, ?_, fun _ => ?_, fun hnone => ?_⟩
      · have hclosed := h.closed
        simp only [State.isClosing, List.contains_eq_mem, decide_eq_false_iff_not] at hclosed ⊢
        simp [hclosed]
      · simp only [reserve_admitted hkind hadmits]
        by_cases hnone : state.outstanding = 0
        · simp [beginActive, incr, incrBy, h.absent hnone, hnone, Counter.expireAt]
        · obtain ⟨counter, hcounter, hdeadline⟩ := h.present hnone
          have hvalue : counter.value = state.outstanding := by
            have hcounted := h.counted
            simpa [State.active, hcounter] using hcounted
          have hone : counter.value + 1 ≠ 1 := by omega
          simp [beginActive, incr, incrBy, hcounter, hone, hnone, hdeadline]
      · simp [State.outstanding] at hnone
  | false =>
      simp only [hadmits, Bool.false_eq_true, if_false, Option.some.injEq] at hstep
      subst hstep
      refine ⟨hexact, h.closed, fun hheld => ?_, fun hnone => ?_⟩
      · simp only [reserve_refused hkind hadmits]
        exact h.present hheld
      · simp only [reserve_refused hkind hadmits]
        exact h.absent hnone

theorem Timed.release (h : Timed state) (hkind : kind ≠ .admin) {id : Nat} {next : State}
    (hstep : step kind settings state (.release id) = some next) : Timed next := by
  have hexact : Exact next := h.toExact.release hkind hstep
  simp only [step] at hstep
  split at hstep
  · rename_i hheld
    cases hstep
    have hcounted : valueOf state.keys.active = state.outstanding := h.counted
    have hcount := outstanding_released .released hheld (by decide)
    refine ⟨hexact, ?_, fun hleft => ?_, fun hnone => ?_⟩
    · by_contra hclosing
      simp only [Bool.not_eq_false] at hclosing
      have hmem := List.mem_or_eq_of_mem_set (isClosing_iff.mp hclosing)
      have hold := isClosing_iff.mpr (hmem.resolve_right (by decide))
      simp [h.closed] at hold
    · simp only [State.outstanding] at hleft
      obtain ⟨counter, hcounter, hdeadline⟩ := h.present (by omega)
      have hmore : ¬valueOf state.keys.active ≤ 1 := by omega
      refine ⟨{ counter with value := counter.value + -1 }, ?_, hdeadline⟩
      simp only [releaseTurn_active hkind, hmore, if_false]
      rw [hcounter]
      rfl
    · simp only [State.outstanding] at hnone
      have hlast : valueOf state.keys.active ≤ 1 := by omega
      simp [releaseTurn_active hkind, hlast]
  · cases hstep

/-- A limit bounds what is held, since the counter counts it. -/
theorem outstanding_le_of_step {limit : Nat} (hlimit : (settings.turnLimits kind).active = limit)
    (hpos : 0 < limit) (hkind : kind ≠ .admin) (h : Timed state) (hle : state.outstanding ≤ limit)
    {action : Action} (hallowed : briefly state action = true) {next : State}
    (hstep : step kind settings state action = some next) : next.outstanding ≤ limit := by
  cases action with
  | elapse duration =>
      simp only [step] at hstep
      split at hstep
      · cases hstep
        exact hle
      · cases hstep
  | reserve reading =>
      simp only [step] at hstep
      split at hstep
      · rename_i hadmits
        cases hstep
        have hfree := ((admits_iff hkind).mp hadmits).2 (hlimit ▸ hpos)
        have hcounted := h.counted
        simp only [State.outstanding, List.count_append, List.count_singleton_self]
        change state.outstanding + 1 ≤ limit
        omega
      · cases hstep
        exact hle
  | release id =>
      simp only [step] at hstep
      split at hstep
      · rename_i hheld
        cases hstep
        have hcount := outstanding_released .released hheld (by decide)
        simp only [State.outstanding] at hcount hle ⊢
        omega
      · cases hstep
  | decr id => simp [briefly] at hallowed
  | delete id => simp [briefly] at hallowed

/-- **The cap on concurrent turns.** When every busy period is shorter than the life of the active
counter, no more reservations are held than the limit. -/
theorem active_cap (hkind : kind ≠ .admin) (hpos : 0 < (settings.turnLimits kind).active)
    (hreach : Reach (step kind settings) (fun state action => briefly state action = true)
      State.init state) :
    state.outstanding ≤ (settings.turnLimits kind).active := by
  have hinv : Timed state ∧ state.outstanding ≤ (settings.turnLimits kind).active := by
    refine hreach.invariant
      (fun state => Timed state ∧ state.outstanding ≤ (settings.turnLimits kind).active) ?_ ?_
    · exact ⟨⟨⟨rfl, nofun⟩, rfl, fun h => absurd rfl h, fun _ => rfl⟩, Nat.zero_le _⟩
    · rintro before action after ⟨h, hle⟩ hallowed hstep
      refine ⟨?_, outstanding_le_of_step rfl hpos hkind h hle hallowed hstep⟩
      cases action with
      | elapse duration => exact h.elapse hallowed hstep
      | reserve reading => exact h.reserve hkind hstep
      | release id => exact h.release hkind hstep
      | decr id => simp [briefly] at hallowed
      | delete id => simp [briefly] at hallowed
  exact hinv.2

/-- Two turns, one after the other, of which the first takes a minute. -/
theorem active_cap_one_minute : ∃ state,
    run (step .tgGuest twoAndOne) State.init [.reserve 0, .elapse 60, .release 0, .reserve 60] =
      some state ∧ state.outstanding ≤ 1 := by
  have hallowed : RunAllowed (step .tgGuest twoAndOne) (fun state action =>
      briefly state action = true) State.init
      [.reserve 0, .elapse 60, .release 0, .reserve 60] := by decide +kernel
  have hruns : (run (step .tgGuest twoAndOne) State.init
      [.reserve 0, .elapse 60, .release 0, .reserve 60]).isSome = true := by decide +kernel
  obtain ⟨state, hrun⟩ := Option.isSome_iff_exists.mp hruns
  exact ⟨state, hrun, active_cap (by decide) (by decide) (reach_of_run hrun hallowed)⟩

/-- After ten minutes the counter is gone, and a second turn is admitted beside the first. -/
theorem active_cap_fails :
    (run (step .tgGuest twoAndOne) State.init [.reserve 0, .elapse 600, .reserve 600]).any
      (fun state => 1 < state.outstanding) = true := by
  decide +kernel

end
end CodexServer.RateLimit
