import Mathlib.Tactic.Linarith
import CodexServer.HourlyLimit
import CodexServer.Proof.RateLimit

/-!
# The hourly limit over whole runs

The sorted set holds every admitted reservation of the last hour as long as no two of them have the
same reading, so its size is the number that the limit bounds.
-/

open Transition

namespace CodexServer.RateLimit

/-- What a sorted set holds; a key that is not there holds nothing. -/
def membersOf (key : Option ScoreSet) : Finset ℚ := key.elim ∅ ScoreSet.members

theorem zCard_eq (key : Option ScoreSet) : zCard key = (membersOf key).card := by
  cases key with
  | none => rfl
  | some scores => rfl

theorem membersOf_filter_nonempty (scores : ScoreSet) :
    membersOf ((some scores).filter fun scores => decide scores.members.Nonempty) =
      scores.members := by
  by_cases hnonempty : scores.members.Nonempty
  · simp [Option.filter, hnonempty, membersOf]
  · simp [Option.filter, membersOf, Finset.not_nonempty_iff_eq_empty.mp hnonempty]

theorem membersOf_zRemRangeByScore (cutoff : ℚ) (key : Option ScoreSet) :
    membersOf (zRemRangeByScore cutoff key) =
      (membersOf key).filter fun score => ¬(0 ≤ score ∧ score ≤ cutoff) := by
  cases key with
  | none => rfl
  | some scores => exact membersOf_filter_nonempty _

theorem deadline_zRemRangeByScore {cutoff : ℚ} {key : Option ScoreSet} {scores : ScoreSet}
    (h : zRemRangeByScore cutoff key = some scores) :
    ∃ before, key = some before ∧ scores.deadline = before.deadline := by
  cases key with
  | none => cases h
  | some before =>
      have hfilter := (Option.filter_eq_some_iff.mp h).1
      cases hfilter
      exact ⟨before, rfl, rfl⟩

section

variable {kind : UserKind} {settings : RuntimeSettings} {reading : ℚ} {keys : Keys}

/-- **How `reserve_turn` ends.** A refusal trims the sorted set and does nothing else. -/
theorem reserveTurn_cases (hkind : kind ≠ .admin)
    (hhourly : 0 < (settings.turnLimits kind).hourly) (reading clock : ℚ) (keys : Keys) :
    (∃ refusal, refusalOf (reserveTurn kind settings reading clock keys).1 = some refusal ∧
        refusal.scope = "hourly" ∧
        hourlyReached (settings.turnLimits kind) reading keys = true ∧
        (reserveTurn kind settings reading clock keys).2.hourly =
          zRemRangeByScore (reading - hourlyWindow) keys.hourly) ∨
      (∃ refusal, refusalOf (reserveTurn kind settings reading clock keys).1 = some refusal ∧
        refusal.scope = "active" ∧
        hourlyReached (settings.turnLimits kind) reading keys = false ∧
        0 < (settings.turnLimits kind).active ∧
        ((settings.turnLimits kind).active : Int) < valueOf keys.active + 1 ∧
        (reserveTurn kind settings reading clock keys).2.hourly =
          zRemRangeByScore (reading - hourlyWindow) keys.hourly) ∨
      (refusalOf (reserveTurn kind settings reading clock keys).1 = none ∧
        hourlyReached (settings.turnLimits kind) reading keys = false ∧
        (reserveTurn kind settings reading clock keys).2.hourly =
          some (zAdd reading (clock + hourlyWindow * 2)
            (zRemRangeByScore (reading - hourlyWindow) keys.hourly))) := by
  have hincr : (beginActive clock keys.active).1 = valueOf keys.active + 1 :=
    incrBy_fst 1 keys.active
  have htrimmed : hourlyTrimmed (settings.turnLimits kind) reading keys.hourly =
      zRemRangeByScore (reading - hourlyWindow) keys.hourly := if_pos hhourly
  unfold reserveTurn reserveScript
  simp only [hkind, if_false, hincr, htrimmed]
  cases hreached : hourlyReached (settings.turnLimits kind) reading keys with
  | true =>
      left
      exact ⟨_, rfl, rfl, rfl, rfl⟩
  | false =>
      right
      by_cases hactive : 0 < (settings.turnLimits kind).active ∧
          ((settings.turnLimits kind).active : Int) < valueOf keys.active + 1
      · left
        simp only [hactive, and_self, Bool.false_eq_true, if_false, if_true]
        exact ⟨_, rfl, rfl, trivial⟩
      · right
        simp only [hactive, hhourly, Bool.false_eq_true, if_false, if_true]
        exact ⟨rfl, trivial, trivial⟩

theorem hourlyReached_iff (hhourly : 0 < (settings.turnLimits kind).hourly) :
    hourlyReached (settings.turnLimits kind) reading keys = true ↔
      (settings.turnLimits kind).hourly ≤
        (membersOf (zRemRangeByScore (reading - hourlyWindow) keys.hourly)).card := by
  simp [hourlyReached, hourlyTrimmed, hhourly, zCard_eq]

theorem refusalOf_isNone_iff {state : State} : state.admits kind settings reading = true ↔
    refusalOf (reserveTurn kind settings reading state.clock state.keys).1 = none := by
  unfold State.admits
  cases (reserveTurn kind settings reading state.clock state.keys).1 with
  | ok _ => simp [refusalOf]
  | error refusal => simp [refusalOf]

theorem step_reserve_keys {state next : State}
    (hstep : step kind settings state (.reserve reading) = some next) :
    next.keys = (reserveTurn kind settings reading state.clock state.keys).2 ∧
      next.clock = state.clock := by
  simp only [step] at hstep
  split at hstep <;> (cases hstep; exact ⟨rfl, rfl⟩)

theorem step_hourly {state next : State} {action : Action}
    (hstep : step kind settings state action = some next)
    (hreserve : ∀ reading, action ≠ .reserve reading)
    (helapse : ∀ duration, action ≠ .elapse duration) :
    next.keys.hourly = state.keys.hourly ∧ next.clock = state.clock := by
  cases action with
  | elapse duration => exact absurd rfl (helapse duration)
  | reserve reading => exact absurd rfl (hreserve reading)
  | decr id =>
      simp only [step] at hstep
      split at hstep
      · cases hstep
        refine ⟨?_, rfl⟩
        simp only [releaseDecr]
        split <;> rfl
      · cases hstep
  | delete id =>
      simp only [step] at hstep
      split at hstep
      · cases hstep
        exact ⟨rfl, rfl⟩
      · cases hstep
  | release id =>
      simp only [step] at hstep
      split at hstep
      · cases hstep
        refine ⟨?_, rfl⟩
        simp only [releaseTurn, releaseDecr]
        split
        · rfl
        · split <;> rfl
      · cases hstep

end

section

variable {kind : UserKind} {hourly : Nat} {settings : RuntimeSettings} {window next : Window}

/-- **What a step does to the window.** -/
theorem windowStep_cases {action : Action}
    (hstep : windowStep kind hourly window (settings, action) = some next) :
    (settings.turnLimits kind).hourly = hourly ∧
      ((∃ reading, action = .reserve reading ∧ window.mayRead reading ∧
          next.state.clock = window.state.clock ∧
          next.state.keys =
            (reserveTurn kind settings reading window.state.clock window.state.keys).2 ∧
          next.calls = window.calls ++ [⟨reading, refusalOf
            (reserveTurn kind settings reading window.state.clock window.state.keys).1⟩]) ∨
        (∃ duration, action = .elapse duration ∧ 0 ≤ duration ∧
          next.state.clock = window.state.clock + duration ∧
          next.state.keys = window.state.keys.expire (window.state.clock + duration) ∧
          next.calls = window.calls) ∨
        (next.state.clock = window.state.clock ∧
          next.state.keys.hourly = window.state.keys.hourly ∧ next.calls = window.calls)) := by
  simp only [windowStep] at hstep
  split at hstep
  · rename_i hlimit
    refine ⟨hlimit, ?_⟩
    split at hstep
    · rename_i reading
      left
      split at hstep
      · rename_i hmay
        obtain ⟨state, hnext, rfl⟩ := Option.map_eq_some_iff.mp hstep
        obtain ⟨hkeys, hclock⟩ := step_reserve_keys hnext
        exact ⟨reading, rfl, hmay, hclock, hkeys, rfl⟩
      · cases hstep
    · rename_i hreserve
      right
      obtain ⟨state, hnext, rfl⟩ := Option.map_eq_some_iff.mp hstep
      by_cases helapse : ∃ duration, action = .elapse duration
      · left
        obtain ⟨duration, rfl⟩ := helapse
        simp only [step] at hnext
        split at hnext
        · rename_i hpos
          cases hnext
          exact ⟨duration, rfl, hpos, rfl, rfl, rfl⟩
        · cases hnext
      · right
        obtain ⟨hkeys, hclock⟩ := step_hourly hnext (fun reading h => hreserve reading h)
          (fun duration h => helapse ⟨duration, h⟩)
        exact ⟨hclock, hkeys, rfl⟩
  · cases hstep

/-! ### What the sorted set records -/

/-- Every admitted reservation is recorded, unless it is an hour older than some reading or two
hours older than now. -/
structure Tracked (window : Window) : Prop where
  called : ∀ call ∈ window.calls, 0 ≤ call.reading ∧ call.reading ≤ window.state.clock
  recorded : ∀ score ∈ membersOf window.state.keys.hourly, score ∈ window.admitted
  kept : ∀ reading ∈ window.admitted, reading ∈ membersOf window.state.keys.hourly ∨
    (∃ call ∈ window.calls, reading ≤ call.reading - hourlyWindow) ∨
    reading + hourlyWindow * 2 ≤ window.state.clock
  deadline : ∀ scores, window.state.keys.hourly = some scores → ∃ deadline,
    scores.deadline = some deadline ∧
      ∀ reading ∈ window.admitted, reading + hourlyWindow * 2 ≤ deadline

theorem mem_admitted {reading : ℚ} :
    reading ∈ window.admitted ↔ ∃ call ∈ window.calls, call.refusal = none ∧
      call.reading = reading := by
  simp [Window.admitted, and_assoc]

theorem Tracked.init : Tracked Window.init := by
  constructor <;> simp [Window.init, State.init, membersOf, Window.admitted]

theorem Tracked.elapse (h : Tracked window) {duration : ℚ} (hpos : 0 ≤ duration)
    (hclock : next.state.clock = window.state.clock + duration)
    (hkeys : next.state.keys = window.state.keys.expire (window.state.clock + duration))
    (hcalls : next.calls = window.calls) : Tracked next := by
  have hadmitted : next.admitted = window.admitted := by
    simp only [Window.admitted, hcalls]
  have hhourly : next.state.keys.hourly = window.state.keys.hourly.filter fun scores =>
      alive next.state.clock scores.deadline := by
    rw [hkeys, hclock]
    rfl
  have hkept : next.state.keys.hourly = window.state.keys.hourly ∨
      next.state.keys.hourly = none ∧
        ∀ reading ∈ window.admitted, reading + hourlyWindow * 2 ≤ next.state.clock := by
    cases hkey : window.state.keys.hourly with
    | none =>
        left
        rw [hhourly, hkey]
        rfl
    | some scores =>
        obtain ⟨deadline, hdeadline, hlate⟩ := h.deadline scores hkey
        by_cases halive : next.state.clock < deadline
        · left
          simp [hhourly, hkey, Option.filter, alive, hdeadline, halive]
        · right
          refine ⟨by simp [hhourly, hkey, Option.filter, alive, hdeadline, halive], ?_⟩
          exact fun reading hmem => (hlate reading hmem).trans (not_lt.mp halive)
  constructor
  · intro call hcall
    obtain ⟨hnonneg, hle⟩ := h.called call (hcalls ▸ hcall)
    exact ⟨hnonneg, by rw [hclock]; linarith⟩
  · intro score hscore
    rw [hadmitted]
    rcases hkept with hsame | ⟨hnone, _⟩
    · exact h.recorded score (hsame ▸ hscore)
    · rw [hnone] at hscore
      cases hscore
  · intro reading hmem
    rw [hadmitted] at hmem
    rcases hkept with hsame | ⟨_, hlate⟩
    · rw [hsame, hcalls]
      refine (h.kept reading hmem).imp_right (Or.imp_right fun hold => ?_)
      rw [hclock]
      linarith
    · exact .inr (.inr (hlate reading hmem))
  · intro scores hscores
    rw [hadmitted]
    rcases hkept with hsame | ⟨hnone, _⟩
    · exact h.deadline scores (hsame ▸ hscores)
    · rw [hnone] at hscores
      cases hscores

theorem Tracked.unchanged (h : Tracked window)
    (hclock : next.state.clock = window.state.clock)
    (hkeys : next.state.keys.hourly = window.state.keys.hourly)
    (hcalls : next.calls = window.calls) : Tracked next := by
  have hadmitted : next.admitted = window.admitted := by
    simp only [Window.admitted, hcalls]
  constructor
  · rw [hcalls, hclock]
    exact h.called
  · rw [hkeys, hadmitted]
    exact h.recorded
  · rw [hkeys, hadmitted, hcalls, hclock]
    exact h.kept
  · rw [hkeys, hadmitted]
    exact h.deadline

theorem admitted_append (call : Call) (hcalls : next.calls = window.calls ++ [call]) :
    next.admitted =
      window.admitted ++ if call.refusal = none then [call.reading] else [] := by
  simp only [Window.admitted, hcalls, List.filter_append, List.map_append]
  congr 1
  cases hrefusal : call.refusal <;> simp [hrefusal]

theorem mem_trimmed {reading score : ℚ} {key : Option ScoreSet} :
    score ∈ membersOf (zRemRangeByScore (reading - hourlyWindow) key) ↔
      score ∈ membersOf key ∧ ¬(0 ≤ score ∧ score ≤ reading - hourlyWindow) := by
  rw [membersOf_zRemRangeByScore, Finset.mem_filter]

/-- A refused call: the set is trimmed by its reading. -/
theorem Tracked.refused (h : Tracked window) {reading : ℚ} {refusal : RateLimited}
    (hmay : window.mayRead reading) (hclock : next.state.clock = window.state.clock)
    (hkeys : next.state.keys.hourly =
      zRemRangeByScore (reading - hourlyWindow) window.state.keys.hourly)
    (hcalls : next.calls = window.calls ++ [⟨reading, some refusal⟩]) : Tracked next := by
  have hadmitted : next.admitted = window.admitted := by
    rw [admitted_append _ hcalls]
    exact List.append_nil _
  constructor
  · intro call hcall
    rw [hclock]
    rw [hcalls] at hcall
    rcases List.mem_append.mp hcall with hold | hnew
    · exact h.called call hold
    · obtain rfl := List.mem_singleton.mp hnew
      exact ⟨hmay.1, hmay.2.1⟩
  · intro score hscore
    rw [hkeys] at hscore
    rw [hadmitted]
    exact h.recorded score (mem_trimmed.mp hscore).1
  · intro score hscore
    rw [hadmitted] at hscore
    rw [hkeys, hcalls, hclock]
    rcases h.kept score hscore with hmem | ⟨call, hcall, hold⟩ | hlate
    · by_cases hold : 0 ≤ score ∧ score ≤ reading - hourlyWindow
      · exact .inr (.inl ⟨_, List.mem_append_right _ (List.mem_singleton_self _), hold.2⟩)
      · exact .inl (mem_trimmed.mpr ⟨hmem, hold⟩)
    · exact .inr (.inl ⟨call, List.mem_append_left _ hcall, hold⟩)
    · exact .inr (.inr hlate)
  · intro scores hscores
    rw [hkeys] at hscores
    obtain ⟨before, hbefore, hsame⟩ := deadline_zRemRangeByScore hscores
    rw [hsame, hadmitted]
    exact h.deadline before hbefore

/-- An admitted call: its reading joins the set. -/
theorem Tracked.joined (h : Tracked window) {reading : ℚ} (hmay : window.mayRead reading)
    (hclock : next.state.clock = window.state.clock)
    (hkeys : next.state.keys.hourly =
      some (zAdd reading (window.state.clock + hourlyWindow * 2)
        (zRemRangeByScore (reading - hourlyWindow) window.state.keys.hourly)))
    (hcalls : next.calls = window.calls ++ [⟨reading, none⟩]) : Tracked next := by
  have hadmitted : next.admitted = window.admitted ++ [reading] := by
    rw [admitted_append _ hcalls]
    rfl
  have hmembers : membersOf next.state.keys.hourly = insert reading
      (membersOf (zRemRangeByScore (reading - hourlyWindow) window.state.keys.hourly)) := by
    rw [hkeys]
    rfl
  have hpast : ∀ score ∈ next.admitted, score ≤ window.state.clock := by
    intro score hscore
    rw [hadmitted] at hscore
    rcases List.mem_append.mp hscore with hold | hnew
    · obtain ⟨call, hcall, _, rfl⟩ := mem_admitted.mp hold
      exact (h.called call hcall).2
    · obtain rfl := List.mem_singleton.mp hnew
      exact hmay.2.1
  constructor
  · intro call hcall
    rw [hclock]
    rw [hcalls] at hcall
    rcases List.mem_append.mp hcall with hold | hnew
    · exact h.called call hold
    · obtain rfl := List.mem_singleton.mp hnew
      exact ⟨hmay.1, hmay.2.1⟩
  · intro score hscore
    rw [hadmitted]
    rw [hmembers] at hscore
    rcases Finset.mem_insert.mp hscore with rfl | hold
    · exact List.mem_append_right _ (List.mem_singleton_self _)
    · exact List.mem_append_left _ (h.recorded score (mem_trimmed.mp hold).1)
  · intro score hscore
    rw [hadmitted] at hscore
    rw [hmembers, hcalls, hclock]
    rcases List.mem_append.mp hscore with hbefore | hnew
    · rcases h.kept score hbefore with hmem | ⟨call, hcall, hold⟩ | hlate
      · by_cases hold : 0 ≤ score ∧ score ≤ reading - hourlyWindow
        · exact .inr (.inl ⟨_, List.mem_append_right _ (List.mem_singleton_self _), hold.2⟩)
        · exact .inl (Finset.mem_insert_of_mem (mem_trimmed.mpr ⟨hmem, hold⟩))
      · exact .inr (.inl ⟨call, List.mem_append_left _ hcall, hold⟩)
      · exact .inr (.inr hlate)
    · exact .inl (Finset.mem_insert.mpr (.inl (List.mem_singleton.mp hnew)))
  · intro scores hscores
    rw [hkeys] at hscores
    cases hscores
    refine ⟨_, rfl, fun score hscore => ?_⟩
    linarith [hpast score hscore]

theorem Tracked.step (h : Tracked window) (hkind : kind ≠ .admin) (hpos : 0 < hourly)
    {action : WindowAction} (hstep : windowStep kind hourly window action = some next) :
    Tracked next := by
  obtain ⟨settings, action⟩ := action
  obtain ⟨rfl, ⟨reading, -, hmay, hclock, hkeys, hcalls⟩ |
    ⟨duration, -, hduration, hclock, hkeys, hcalls⟩ | ⟨hclock, hkeys, hcalls⟩⟩ :=
    windowStep_cases hstep
  · obtain ⟨refusal, hrefusal, -, -, htrimmed⟩ | ⟨refusal, hrefusal, -, -, -, -, htrimmed⟩ |
      ⟨hnone, -, hadded⟩ := reserveTurn_cases hkind hpos reading
        window.state.clock window.state.keys
    · rw [hrefusal] at hcalls
      exact h.refused hmay hclock ((congrArg Keys.hourly hkeys).trans htrimmed) hcalls
    · rw [hrefusal] at hcalls
      exact h.refused hmay hclock ((congrArg Keys.hourly hkeys).trans htrimmed) hcalls
    · rw [hnone] at hcalls
      exact h.joined hmay hclock ((congrArg Keys.hourly hkeys).trans hadded) hcalls
  · exact h.elapse hduration hclock hkeys hcalls
  · exact h.unchanged hclock hkeys hcalls

/-! ### The window of a reading -/

theorem recordedIn_eq (instant : ℚ) : window.recordedIn instant =
    (membersOf window.state.keys.hourly).filter fun score =>
      instant - hourlyWindow < score ∧ score ≤ instant := rfl

/-- Trimming takes nothing out of the window of a later instant. -/
theorem recordedIn_trimmed {reading instant : ℚ} (hle : reading ≤ instant)
    (hkeys : next.state.keys.hourly =
      zRemRangeByScore (reading - hourlyWindow) window.state.keys.hourly) :
    next.recordedIn instant = window.recordedIn instant := by
  ext score
  simp only [recordedIn_eq, hkeys, Finset.mem_filter, mem_trimmed]
  constructor
  · rintro ⟨⟨hmem, _⟩, hin⟩
    exact ⟨hmem, hin⟩
  · rintro ⟨hmem, hin⟩
    refine ⟨⟨hmem, fun hold => ?_⟩, hin⟩
    linarith [hin.1, hold.2]

/-- Nothing is lost of the hour before a reading that is not an hour old. -/
theorem Tracked.mem_of_recent (h : Tracked window) {reading score : ℚ}
    (hmay : window.mayRead reading) (hprompt : window.state.clock < reading + hourlyWindow)
    (hadmitted : score ∈ window.admitted) (hrecent : reading - hourlyWindow < score) :
    score ∈ membersOf window.state.keys.hourly := by
  rcases h.kept score hadmitted with hmem | ⟨call, hcall, hold⟩ | hlate
  · exact hmem
  · linarith [hmay.2.2 call hcall]
  · linarith

/-- The readings of a window that have no equals are at most as many as the set that is left. -/
theorem Tracked.admittedIn_le (h : Tracked window) {reading instant : ℚ}
    (hnodup : window.admitted.Nodup) (hmay : window.mayRead reading)
    (hprompt : window.state.clock < reading + hourlyWindow) (hle : reading ≤ instant) :
    window.admittedIn instant ≤
      (membersOf (zRemRangeByScore (reading - hourlyWindow) window.state.keys.hourly)).card := by
  have hcount : window.admittedIn instant = (window.admitted.filter fun score =>
      decide (instant - hourlyWindow < score ∧ score ≤ instant)).length :=
    List.countP_eq_length_filter
  rw [hcount, ← List.toFinset_card_of_nodup (hnodup.filter _)]
  refine Finset.card_le_card fun score hscore => ?_
  obtain ⟨hadmitted, hin⟩ := List.mem_filter.mp (List.mem_toFinset.mp hscore)
  have hrecent : reading - hourlyWindow < score := by
    linarith [(of_decide_eq_true hin).1]
  exact mem_trimmed.mpr ⟨h.mem_of_recent hmay hprompt hadmitted hrecent,
    fun hold => absurd hold.2 (not_le.mpr hrecent)⟩

/-- What the trimmed set holds was admitted in the hour before the reading. -/
theorem Tracked.card_le_admittedIn (h : Tracked window) {reading : ℚ}
    (hmay : window.mayRead reading) :
    (membersOf (zRemRangeByScore (reading - hourlyWindow) window.state.keys.hourly)).card ≤
      window.admittedIn reading := by
  have hcount : window.admittedIn reading = (window.admitted.filter fun score =>
      decide (reading - hourlyWindow < score ∧ score ≤ reading)).length :=
    List.countP_eq_length_filter
  rw [hcount]
  refine (Finset.card_le_card fun score hscore => ?_).trans (List.toFinset_card_le _)
  obtain ⟨hmem, hnew⟩ := mem_trimmed.mp hscore
  have hadmitted := h.recorded score hmem
  obtain ⟨call, hcall, _, rfl⟩ := mem_admitted.mp hadmitted
  have hrecent : reading - hourlyWindow < call.reading :=
    not_le.mp fun hold => hnew ⟨(h.called call hcall).1, hold⟩
  exact List.mem_toFinset.mpr (List.mem_filter.mpr ⟨hadmitted,
    decide_eq_true ⟨hrecent, hmay.2.2 call hcall⟩⟩)

/-! ### The limit -/

/-- A script runs within an hour of the reading of its clock, and a reading that is recorded
already meets one of the limits. -/
def separate (kind : UserKind) (window : Window) : WindowAction → Bool
  | (settings, .reserve reading) =>
      decide (window.state.clock < reading + hourlyWindow) &&
        (decide (reading ∉ window.state.keys.hourly.elim ∅ ScoreSet.members) ||
          hourlyReached (settings.turnLimits kind) reading window.state.keys ||
          decide (0 < (settings.turnLimits kind).active ∧
            (settings.turnLimits kind).active ≤ window.state.active))
  | _ => true

/-- The tracked set, with no two admitted readings alike and the limit kept. -/
structure Capped (hourly : Nat) (window : Window) : Prop extends Tracked window where
  nodup : window.admitted.Nodup
  capped : ∀ instant, window.admittedIn instant ≤ hourly

theorem admittedIn_append {reading : ℚ} (instant : ℚ)
    (hadmitted : next.admitted = window.admitted ++ [reading]) :
    next.admittedIn instant = window.admittedIn instant +
      if instant - hourlyWindow < reading ∧ reading ≤ instant then 1 else 0 := by
  simp only [Window.admittedIn, hadmitted, List.countP_append, List.countP_singleton,
    decide_eq_true_eq]

theorem Capped.of_admitted (h : Capped hourly window) (htracked : Tracked next)
    (hadmitted : next.admitted = window.admitted) : Capped hourly next := by
  refine ⟨htracked, hadmitted ▸ h.nodup, fun instant => ?_⟩
  have hsame : next.admittedIn instant = window.admittedIn instant := by
    simp only [Window.admittedIn, hadmitted]
  exact hsame.le.trans (h.capped instant)

theorem Capped.step (h : Capped hourly window) (hkind : kind ≠ .admin) (hpos : 0 < hourly)
    {action : WindowAction} (hallowed : separate kind window action = true)
    (hstep : windowStep kind hourly window action = some next) : Capped hourly next := by
  have htracked := h.toTracked.step hkind hpos hstep
  obtain ⟨settings, action⟩ := action
  obtain ⟨rfl, ⟨reading, rfl, hmay, -, -, hcalls⟩ | ⟨-, -, -, -, -, hcalls⟩ | ⟨-, -, hcalls⟩⟩ :=
    windowStep_cases hstep
  · obtain ⟨refusal, hrefusal, -⟩ | ⟨refusal, hrefusal, -⟩ | ⟨hnone, hfree, hadded⟩ :=
      reserveTurn_cases hkind hpos reading window.state.clock window.state.keys
    · rw [hrefusal] at hcalls
      exact h.of_admitted htracked ((admitted_append _ hcalls).trans (List.append_nil _))
    · rw [hrefusal] at hcalls
      exact h.of_admitted htracked ((admitted_append _ hcalls).trans (List.append_nil _))
    · rw [hnone] at hcalls
      have hadmitted : next.admitted = window.admitted ++ [reading] :=
        admitted_append _ hcalls
      have hactive : ¬(0 < (settings.turnLimits kind).active ∧
          (settings.turnLimits kind).active ≤ window.state.active) := by
        intro hfull
        have hadmits := (admits_iff hkind).mp (refusalOf_isNone_iff.mpr hnone)
        have := hadmits.2 hfull.1
        omega
      simp only [separate, hfree, Bool.or_false, Bool.and_eq_true, Bool.or_eq_true,
        decide_eq_true_eq, hactive, or_false] at hallowed
      obtain ⟨hprompt, hnew⟩ := hallowed
      refine ⟨htracked, ?_, fun instant => ?_⟩
      · rw [hadmitted]
        refine List.nodup_append.mpr ⟨h.nodup, List.nodup_singleton _, ?_⟩
        rintro score hscore other hother rfl
        obtain rfl := List.mem_singleton.mp hother
        have hwindow : score - hourlyWindow < score := by norm_num [hourlyWindow]
        exact hnew (h.mem_of_recent hmay hprompt hscore hwindow)
      · rw [admittedIn_append instant hadmitted]
        split
        · rename_i hin
          -- The limit was not reached by what is recorded of this hour.
          have hle := h.admittedIn_le h.nodup hmay hprompt hin.2
          have hbelow : ¬(settings.turnLimits kind).hourly ≤
              (membersOf (zRemRangeByScore (reading - hourlyWindow)
                window.state.keys.hourly)).card := fun hreached => by
            rw [(hourlyReached_iff hpos).mpr hreached] at hfree
            cases hfree
          omega
        · exact h.capped instant
  · exact h.of_admitted htracked (by simp only [Window.admitted, hcalls])
  · exact h.of_admitted htracked (by simp only [Window.admitted, hcalls])

/-- What the hourly limit promises in a state: to every window its bound, and to a call that is
refused now that the window is full, if that is the reason, and that nothing is counted. -/
structure Limited (kind : UserKind) (hourly : Nat) (window : Window) : Prop where
  capped : ∀ instant, window.admittedIn instant ≤ hourly
  refused : ∀ settings reading next refusal,
    windowStep kind hourly window (settings, .reserve reading) = some next →
    next.calls = window.calls ++ [⟨reading, some refusal⟩] →
    (refusal.scope = "hourly" → hourly ≤ window.admittedIn reading) ∧
      next.state.keys.active = window.state.keys.active ∧
      ∀ instant, reading ≤ instant → next.recordedIn instant = window.recordedIn instant

theorem Tracked.refusal (h : Tracked window) (hkind : kind ≠ .admin) (hpos : 0 < hourly)
    {reading : ℚ} {refusal : RateLimited}
    (hstep : windowStep kind hourly window (settings, .reserve reading) = some next)
    (hrefused : next.calls = window.calls ++ [⟨reading, some refusal⟩]) :
    (refusal.scope = "hourly" → hourly ≤ window.admittedIn reading) ∧
      next.state.keys.active = window.state.keys.active ∧
      ∀ instant, reading ≤ instant → next.recordedIn instant = window.recordedIn instant := by
  obtain ⟨rfl, ⟨clock, hclock, hmay, -, hkeys, hcalls⟩ | ⟨_, hother, -⟩ | ⟨-, -, hcalls⟩⟩ :=
    windowStep_cases hstep
  · cases hclock
    have hresult : refusalOf
        (reserveTurn kind settings reading window.state.clock window.state.keys).1 =
          some refusal := by
      have hlast := List.append_cancel_left (hcalls.symm.trans hrefused)
      exact congrArg Call.refusal (List.singleton_inj.mp hlast)
    have hactive : next.state.keys.active = window.state.keys.active := by
      rw [hkeys]
      refine reserve_refused hkind (Bool.eq_false_iff.mpr fun hadmits => ?_)
      rw [refusalOf_isNone_iff.mp hadmits] at hresult
      cases hresult
    obtain ⟨other, hother, hscope, hreached, htrimmed⟩ |
      ⟨other, hother, hscope, -, -, -, htrimmed⟩ | ⟨hnone, -, -⟩ :=
      reserveTurn_cases hkind hpos reading window.state.clock window.state.keys
    · refine ⟨fun _ => ?_, hactive, fun instant hle =>
        recordedIn_trimmed hle ((congrArg Keys.hourly hkeys).trans htrimmed)⟩
      exact ((hourlyReached_iff hpos).mp hreached).trans (h.card_le_admittedIn hmay)
    · refine ⟨fun hhourly => ?_, hactive, fun instant hle =>
        recordedIn_trimmed hle ((congrArg Keys.hourly hkeys).trans htrimmed)⟩
      obtain rfl := Option.some.inj (hother.symm.trans hresult)
      exact absurd (hscope.symm.trans hhourly) (by decide)
    · rw [hnone] at hresult
      cases hresult
  · cases hother
  · have hlength := congrArg List.length (hcalls.symm.trans hrefused)
    simp at hlength

/-- **The sliding hourly limit.** When no reservation that both limits let through has a reading
that is recorded already, no hour has more admitted reservations than the limit, a refusal for the
hourly limit is of a full hour, and a refusal counts nothing. -/
theorem hourly_limit_slides (hkind : kind ≠ .admin) (hpos : 0 < hourly)
    (hreach : Reach (windowStep kind hourly) (fun window action =>
      separate kind window action = true) Window.init window) : Limited kind hourly window := by
  have hcapped : Capped hourly window := by
    refine hreach.invariant (Capped hourly) ⟨Tracked.init, List.nodup_nil, ?_⟩ ?_
    · intro instant
      exact Nat.zero_le _
    · intro before action after h hallowed hstep
      exact h.step hkind hpos hallowed hstep
  refine ⟨hcapped.capped, ?_⟩
  intro settings reading next refusal hstep hrefused
  exact hcapped.toTracked.refusal hkind hpos hstep hrefused

/-- Two turns an hour for everybody, and any number at a time. -/
def twoAnHour : RuntimeSettings := ⟨⟨0, 2⟩, ⟨0, 2⟩, 20⟩

/-- Two turns, and a third that is refused a minute later. -/
theorem hourly_limit_slides_third_refused : ∃ window,
    run (windowStep .tgGuest 2) Window.init
      [(twoAnHour, .elapse 10), (twoAnHour, .reserve 10), (twoAnHour, .elapse 60),
        (twoAnHour, .reserve 65), (twoAnHour, .reserve 70)] = some window ∧
      Limited .tgGuest 2 window := by
  have hallowed : RunAllowed (windowStep .tgGuest 2) (fun window action =>
      separate .tgGuest window action = true) Window.init
      [(twoAnHour, .elapse 10), (twoAnHour, .reserve 10), (twoAnHour, .elapse 60),
        (twoAnHour, .reserve 65), (twoAnHour, .reserve 70)] := by decide +kernel
  have hruns : (run (windowStep .tgGuest 2) Window.init
      [(twoAnHour, .elapse 10), (twoAnHour, .reserve 10), (twoAnHour, .elapse 60),
        (twoAnHour, .reserve 65), (twoAnHour, .reserve 70)]).isSome = true := by decide +kernel
  obtain ⟨window, hrun⟩ := Option.isSome_iff_exists.mp hruns
  exact ⟨window, hrun, hourly_limit_slides (by decide) (by decide) (reach_of_run hrun hallowed)⟩

/-- Three reservations whose clocks read the same are recorded once, and all admitted. -/
theorem hourly_limit_ties :
    (run (windowStep .tgGuest 2) Window.init
      [(twoAnHour, .elapse 10), (twoAnHour, .reserve 10), (twoAnHour, .reserve 10),
        (twoAnHour, .reserve 10)]).any (fun window => 2 < window.admittedIn 10) = true := by
  decide +kernel

end
end CodexServer.RateLimit
