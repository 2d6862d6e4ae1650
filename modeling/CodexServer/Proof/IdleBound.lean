import Mathlib.Tactic.Linarith
import CodexServer.IdleBound
import CodexServer.Proof.CodexTurn

/-!
# The hard cap bounds the silence of a turn

The deadline is an idle time after its last extension, and an extension that is no notification
comes before the hard cap. So a turn that yields nothing more is over an idle time after the cap.
-/

open Transition

namespace CodexServer.CodexTurn

/-! ### What a step does to the deadline -/

section

variable {options : Options} {session next : Session} {idle : ℚ}

theorem decideIdle_beforeCap {now turnStartedAt hardCapS probeIntervalS : ℚ} {active : Bool}
    {probed : Option ℚ} (h : decideIdle now turnStartedAt active probed hardCapS probeIntervalS ≠
      .hardCapExceeded) : now - turnStartedAt < hardCapS := by
  by_contra hcap
  exact h (if_pos (not_lt.mp hcap))

/-- **The idle check.** It ends the turn, asks the callback, or extends the deadline; the last two
before the hard cap only. -/
theorem handleIdle_cases (session : Session) (hidle : options.idleS = some idle) :
    ((session.handleIdle options).point = .ended .timeoutError ∧
        (session.handleIdle options).idleDeadline = session.idleDeadline ∧
        (options.hardCapS ≤ session.clock - session.turnStartedAt ∨ options.hasOnIdle = false)) ∨
      ((session.handleIdle options).point = .idling ∧
        (session.handleIdle options).idleDeadline = session.idleDeadline ∧
        session.clock - session.turnStartedAt < options.hardCapS) ∨
      ((session.handleIdle options).point = .checking ∧
        (session.handleIdle options).idleDeadline = some (session.clock + idle) ∧
        session.clock - session.turnStartedAt < options.hardCapS) := by
  unfold Session.handleIdle
  split
  · rename_i hcap
    exact .inl ⟨rfl, rfl, .inl (Session.decideIdle_hardCap hcap)⟩
  · rename_i hprobe
    have hbefore := decideIdle_beforeCap (by rw [hprobe]; decide)
    split
    · exact .inr (.inl ⟨rfl, rfl, hbefore⟩)
    · rename_i hnone
      exact .inl ⟨rfl, rfl, .inr (Bool.eq_false_iff.mpr hnone)⟩
  · rename_i hsilent
    have hbefore := decideIdle_beforeCap (by rw [hsilent]; decide)
    simp only [Session.extendIdleDeadline, hidle]
    exact .inr (.inr ⟨trivial, trivial, hbefore⟩)

/-- **A note.** One that is not for the turn leaves the deadline; any other is yielded. -/
theorem handle_cases (session : Session) (hidle : options.idleS = some idle)
    (note : Notification) :
    (note.passes options.turnId = false ∧
        (session.handle options note).idleDeadline = session.idleDeadline ∧
        (session.handle options note).yielded = session.yielded ∧
        ((session.handle options note).point = .accounting ∨
          (session.handle options note).point = .checking ∨
          (session.handle options note).point = .ended .staleTurnStream)) ∨
      (note.passes options.turnId = true ∧
        (session.handle options note).idleDeadline = some (session.clock + idle) ∧
        (session.handle options note).yielded = session.yielded ++ [note] ∧
        ((session.handle options note).point = .checking ∨
          ∃ exit, exit ≠ .timeoutError ∧ (session.handle options note).point = .ended exit)) := by
  unfold Session.handle
  split
  · rename_i haccount
    left
    refine ⟨by simp [Notification.passes, haccount], rfl, rfl, ?_⟩
    split
    · exact .inl rfl
    · exact .inr (.inl rfl)
  · rename_i haccount
    split
    · rename_i hstale
      left
      refine ⟨by simp [Notification.passes, hstale], ?_⟩
      simp only [Session.recordStale]
      split
      · exact ⟨rfl, rfl, .inr (.inr rfl)⟩
      · exact ⟨rfl, rfl, .inr (.inl rfl)⟩
    · rename_i hstale
      split
      · rename_i hnoise
        left
        exact ⟨by simp [Notification.passes, hnoise], rfl, rfl, .inr (.inl rfl)⟩
      · rename_i hnoise
        right
        refine ⟨by simp [Notification.passes, haccount, hstale, hnoise], ?_⟩
        have hextended : session.extendIdleDeadline options =
            { session with idleDeadline := some (session.clock + idle) } := by
          simp only [Session.extendIdleDeadline, hidle]
        rw [hextended]
        unfold Session.translate
        split
        · exact ⟨rfl, rfl, .inr ⟨.malformed _, by simp, rfl⟩⟩
        · exact ⟨rfl, rfl, .inl rfl⟩
        · split
          · exact ⟨rfl, rfl, .inl rfl⟩
          · exact ⟨rfl, rfl, .inr ⟨.finished, by simp, rfl⟩⟩
          · exact ⟨rfl, rfl, .inr ⟨.finished, by simp, rfl⟩⟩
          · exact ⟨rfl, rfl, .inl rfl⟩
          · exact ⟨rfl, rfl, .inl rfl⟩

end

/-! ### The invariant -/

section

variable {options : Options} {turn next : TimedTurn} {idle startedAt : ℚ}

/-- The deadline, and how far it can be. -/
structure Within (options : Options) (idle startedAt : ℚ) (turn : TimedTurn) : Prop where
  started : turn.session.turnStartedAt = startedAt
  deadline : turn.session.idleDeadline = some (turn.extendedAt + idle)
  reach : turn.extendedAt ≤ max turn.yieldedAt (startedAt + options.hardCapS)
  past : turn.yieldedAt ≤ turn.session.clock
  clock : turn.session.clock ≤ max turn.yieldedAt (startedAt + options.hardCapS) + idle
  waiting : ∀ timer, turn.session.point = .waiting timer →
    timer = some (turn.extendedAt + idle) ∧ turn.session.clock ≤ turn.extendedAt + idle
  idling : turn.session.point = .idling → turn.session.clock < startedAt + options.hardCapS ∧
    turn.extendedAt + idle ≤ turn.session.clock

variable {after : Session}

theorem moved_kept (hdeadline : after.idleDeadline = turn.session.idleDeadline)
    (hyielded : after.yielded = turn.session.yielded) :
    turn.moved after = ⟨after, turn.yieldedAt, turn.extendedAt⟩ := by
  simp [TimedTurn.moved, hdeadline, hyielded]

theorem Within.moved_extended (h : Within options idle startedAt turn)
    (hclock : after.clock = turn.session.clock)
    (hdeadline : after.idleDeadline = some (turn.session.clock + idle)) :
    (turn.moved after).extendedAt = turn.session.clock := by
  simp only [TimedTurn.moved, hdeadline, h.deadline, Option.some.injEq, add_left_inj, hclock]
  split
  · rename_i hsame
    exact hsame.symm
  · rfl

/-- A step that leaves the deadline. -/
theorem Within.kept (h : Within options idle startedAt turn)
    (hclock : after.clock = turn.session.clock)
    (hstarted : after.turnStartedAt = turn.session.turnStartedAt)
    (hdeadline : after.idleDeadline = turn.session.idleDeadline)
    (hyielded : after.yielded = turn.session.yielded)
    (hwaiting : ∀ timer, after.point = .waiting timer →
      timer = some (turn.extendedAt + idle) ∧ turn.session.clock ≤ turn.extendedAt + idle)
    (hidling : after.point = .idling → turn.session.clock < startedAt + options.hardCapS ∧
      turn.extendedAt + idle ≤ turn.session.clock) :
    Within options idle startedAt (turn.moved after) := by
  rw [moved_kept hdeadline hyielded]
  refine ⟨hstarted.trans h.started, hdeadline.trans h.deadline, h.reach, ?_, ?_, ?_, ?_⟩
  · rw [hclock]
    exact h.past
  · rw [hclock]
    exact h.clock
  · rw [hclock]
    exact hwaiting
  · rw [hclock]
    exact hidling

/-- A step that sets the deadline, for a notification or before the hard cap. -/
theorem Within.extended (h : Within options idle startedAt turn) (hpos : 0 < idle)
    (hclock : after.clock = turn.session.clock)
    (hstarted : after.turnStartedAt = turn.session.turnStartedAt)
    (hdeadline : after.idleDeadline = some (turn.session.clock + idle))
    (hwhy : (turn.moved after).yieldedAt = turn.session.clock ∨
      (turn.moved after).yieldedAt = turn.yieldedAt ∧
        turn.session.clock < startedAt + options.hardCapS)
    (hpoint : after.point = .checking ∨ ∃ exit, after.point = .ended exit) :
    Within options idle startedAt (turn.moved after) := by
  have hextended := h.moved_extended hclock hdeadline
  have hreach : turn.session.clock ≤
      max (turn.moved after).yieldedAt (startedAt + options.hardCapS) := by
    rcases hwhy with hyielded | ⟨-, hbefore⟩
    · rw [hyielded]
      exact le_max_left _ _
    · exact le_max_of_le_right hbefore.le
  refine ⟨hstarted.trans h.started, ?_, ?_, ?_, ?_, fun timer hwaiting => ?_, fun hidling => ?_⟩
  · rw [hextended]
    exact hdeadline
  · rw [hextended]
    exact hreach
  · show (turn.moved after).yieldedAt ≤ after.clock
    rw [hclock]
    rcases hwhy with hyielded | ⟨hyielded, -⟩
    · exact hyielded.le
    · exact hyielded.le.trans h.past
  · show after.clock ≤ _
    rw [hclock]
    linarith
  · have hwaits : after.point = .waiting timer := hwaiting
    rcases hpoint with hchecking | ⟨exit, hended⟩
    · cases hchecking.symm.trans hwaits
    · cases hended.symm.trans hwaits
  · have hidles : after.point = .idling := hidling
    rcases hpoint with hchecking | ⟨exit, hended⟩
    · cases hchecking.symm.trans hidles
    · cases hended.symm.trans hidles

theorem Within.start (hidle : options.idleS = some idle) (hpos : 0 < idle)
    (queue : List (Option Notification)) (startedAt : ℚ) :
    Within options idle startedAt (.start options queue startedAt) := by
  refine ⟨rfl, ?_, le_max_left _ _, le_rfl, ?_, nofun, nofun⟩
  · simp [TimedTurn.start, Session.start, hidle]
  · have hle := le_max_left startedAt (startedAt + options.hardCapS)
    show startedAt ≤ _
    exact hle.trans (le_add_of_nonneg_right hpos.le)

/-! ### The steps -/

/-- The idle check of a turn whose deadline has come. -/
theorem Within.handleIdle (h : Within options idle startedAt turn)
    (hidle : options.idleS = some idle) (hpos : 0 < idle) {before : Session}
    (hbefore : before = turn.session ∨ before = { turn.session with exhausted := true })
    (hpassed : turn.extendedAt + idle ≤ turn.session.clock) :
    Within options idle startedAt (turn.moved (before.handleIdle options)) := by
  have hstays := @Session.handleIdle_stays options before
  obtain ⟨hclock, hstarted, hdeadline, hyielded⟩ : before.clock = turn.session.clock ∧
      before.turnStartedAt = turn.session.turnStartedAt ∧
      before.idleDeadline = turn.session.idleDeadline ∧
      before.yielded = turn.session.yielded := by
    rcases hbefore with rfl | rfl <;> exact ⟨rfl, rfl, rfl, rfl⟩
  have hsame : (before.handleIdle options).yielded = turn.session.yielded :=
    (congrArg Ledger.yielded Session.handleIdle_ledger).trans hyielded
  have hbound : before.clock - before.turnStartedAt < options.hardCapS →
      turn.session.clock < startedAt + options.hardCapS := by
    rw [hclock, hstarted, h.started]
    intro hlt
    linarith
  obtain ⟨hpoint, hkept, -⟩ | ⟨hpoint, hkept, hcap⟩ | ⟨hpoint, hset, hcap⟩ :=
    handleIdle_cases before hidle
  · refine h.kept (hstays.clock.trans hclock) (hstays.started.trans hstarted)
      (hkept.trans hdeadline) hsame ?_ ?_
    · intro timer hwaits
      cases hpoint.symm.trans hwaits
    · intro hidles
      cases hpoint.symm.trans hidles
  · refine h.kept (hstays.clock.trans hclock) (hstays.started.trans hstarted)
      (hkept.trans hdeadline) hsame ?_ fun _ => ⟨hbound hcap, hpassed⟩
    intro timer hwaits
    cases hpoint.symm.trans hwaits
  · rw [hclock] at hset
    refine h.extended hpos (hstays.clock.trans hclock) (hstays.started.trans hstarted) hset
      (.inr ⟨?_, hbound hcap⟩) (.inl hpoint)
    simp [TimedTurn.moved, hsame]

/-- A note is taken from the queue. -/
theorem Within.handle (h : Within options idle startedAt turn)
    (hidle : options.idleS = some idle) (hpos : 0 < idle) (note : Notification)
    (rest : List (Option Notification)) :
    Within options idle startedAt
      (turn.moved ((turn.session.takes note rest).handle options note)) := by
  have hstays := @Session.handle_stays options (turn.session.takes note rest) note
  obtain ⟨-, hkept, hyielded, hpoint⟩ | ⟨-, hset, hyielded, hpoint⟩ :=
    handle_cases (turn.session.takes note rest) hidle note
  · refine h.kept hstays.clock hstays.started hkept hyielded ?_ ?_
    · intro timer hwaits
      rcases hpoint with haccount | hchecking | hstale
      · cases haccount.symm.trans hwaits
      · cases hchecking.symm.trans hwaits
      · cases hstale.symm.trans hwaits
    · intro hidles
      rcases hpoint with haccount | hchecking | hstale
      · cases haccount.symm.trans hidles
      · cases hchecking.symm.trans hidles
      · cases hstale.symm.trans hidles
  · refine h.extended hpos hstays.clock hstays.started hset (.inl ?_)
      (hpoint.imp_right fun ⟨exit, _, hended⟩ => ⟨exit, hended⟩)
    have hmore : turn.session.yielded.length <
        ((turn.session.takes note rest).handle options note).yielded.length := by
      rw [hyielded]
      simp [Session.takes]
    simp only [TimedTurn.moved, hmore, if_true]
    exact hstays.clock

/-- The turn ends, or goes on at once, with its deadline as it was. -/
theorem Within.goOn (h : Within options idle startedAt turn)
    (hclock : after.clock = turn.session.clock)
    (hstarted : after.turnStartedAt = turn.session.turnStartedAt)
    (hdeadline : after.idleDeadline = turn.session.idleDeadline)
    (hyielded : after.yielded = turn.session.yielded)
    (hpoint : after.point = .checking ∨ ∃ exit, after.point = .ended exit) :
    Within options idle startedAt (turn.moved after) := by
  refine h.kept hclock hstarted hdeadline hyielded (fun timer hwaits => ?_) fun hidles => ?_
  · rcases hpoint with hchecking | ⟨exit, hended⟩
    · cases hchecking.symm.trans hwaits
    · cases hended.symm.trans hwaits
  · rcases hpoint with hchecking | ⟨exit, hended⟩
    · cases hchecking.symm.trans hidles
    · cases hended.symm.trans hidles

theorem Within.resume (h : Within options idle startedAt turn)
    (hidle : options.idleS = some idle) (hpos : 0 < idle)
    (hresume : turn.session.resume options = some after) :
    Within options idle startedAt (turn.moved after) := by
  unfold Session.resume at hresume
  split at hresume
  · simp only [h.deadline] at hresume
    split at hresume
    · rename_i hpassed
      cases hresume
      exact h.handleIdle hidle hpos (.inl rfl) (sub_nonpos.mp hpassed)
    · rename_i hahead
      cases hresume
      have hlt : turn.session.clock < turn.extendedAt + idle := by
        simpa using hahead
      refine h.kept rfl rfl h.deadline.symm rfl (fun timer hwaits => ?_) nofun
      cases hwaits
      exact ⟨rfl, hlt.le⟩
  · unfold Session.next at hresume
    split at hresume
    · cases hresume
      exact h.goOn rfl rfl rfl rfl (.inr ⟨_, rfl⟩)
    · split at hresume
      · cases hresume
      · cases hresume
        exact h.goOn rfl rfl rfl rfl (.inr ⟨_, rfl⟩)
      · cases hresume
        exact h.handle hidle hpos _ _
  · cases hresume
  · cases hresume
  · cases hresume

theorem Within.timeOut (h : Within options idle startedAt turn)
    (hidle : options.idleS = some idle) (hpos : 0 < idle) {timer : ℚ}
    (hpoint : turn.session.point = .waiting (some timer))
    (htimeOut : turn.session.timeOut options timer = some after) :
    Within options idle startedAt (turn.moved after) := by
  have htimer : timer = turn.extendedAt + idle := Option.some.inj (h.waiting _ hpoint).1
  unfold Session.timeOut at htimeOut
  split at htimeOut
  · rename_i hdue
    simp only at htimeOut
    split at htimeOut
    · cases htimeOut
      exact h.goOn rfl rfl rfl rfl (.inl rfl)
    · cases htimeOut
      exact h.handleIdle hidle hpos (.inr rfl) (htimer ▸ hdue.1)
  · cases htimeOut

theorem Within.answerIdle (h : Within options idle startedAt turn)
    (hidle : options.idleS = some idle) (hpos : 0 < idle) {moves answer : Bool}
    (hstep : step options turn.session (.answerIdle moves answer) = some after) :
    Within options idle startedAt (turn.moved after) := by
  simp only [step] at hstep
  split at hstep
  · rename_i hpoint
    have hcap := (h.idling hpoint).1
    cases moves with
    | false =>
        cases answer <;> cases hstep
        · exact h.goOn rfl rfl rfl rfl (.inr ⟨_, rfl⟩)
        · exact h.goOn rfl rfl rfl rfl (.inl rfl)
    | true =>
        simp only [if_true, Session.extendIdleDeadline, hidle] at hstep
        have hsame : ∀ {point : Point},
            (turn.moved { turn.session with
              idleDeadline := some (turn.session.clock + idle), point := point }).yieldedAt =
                turn.yieldedAt := by
          intro point
          simp [TimedTurn.moved]
        cases answer <;> cases hstep
        · exact h.extended hpos rfl rfl rfl (.inr ⟨hsame, hcap⟩) (.inr ⟨_, rfl⟩)
        · exact h.extended hpos rfl rfl rfl (.inr ⟨hsame, hcap⟩) (.inl rfl)
  · cases hstep

/-- Every step but the passing of time is one of the session. -/
theorem timedStep_moved {action : Action} (hstep : timedStep options turn action = some next)
    (htime : ∀ duration, action ≠ .elapse duration) :
    ∃ after, step options turn.session action = some after ∧ next = turn.moved after := by
  have hmap : (step options turn.session action).map turn.moved = some next := by
    cases action with
    | elapse duration => exact absurd rfl (htime duration)
    | extend => cases hstep
    | _ => exact hstep
  obtain ⟨after, hafter, hnext⟩ := Option.map_eq_some_iff.mp hmap
  exact ⟨after, hafter, hnext.symm⟩

theorem Within.step (h : Within options idle startedAt turn)
    (hidle : options.idleS = some idle) (hpos : 0 < idle) {action : Action}
    (hstep : timedStep options turn action = some next) : Within options idle startedAt next := by
  cases action with
  | elapse duration =>
      simp only [timedStep] at hstep
      split at hstep
      · rename_i hlets
        cases hstep
        unfold TimedTurn.lets at hlets
        split at hlets
        · rename_i timer hpoint
          obtain ⟨rfl, -⟩ := h.waiting timer hpoint
          simp only [Bool.and_eq_true, decide_eq_true_eq, Option.all_some] at hlets
          obtain ⟨hnonneg, hbefore⟩ := hlets
          have hreach := h.reach
          refine ⟨h.started, h.deadline, h.reach, h.past.trans (le_add_of_nonneg_right hnonneg),
            hbefore.trans (add_le_add_left h.reach idle), fun timer hwaits => ?_, fun hidles => ?_⟩
          · exact ⟨(h.waiting timer hwaits).1, hbefore⟩
          · cases hpoint.symm.trans hidles
        · cases hlets
      · cases hstep
  | extend => cases hstep
  | arrive entry =>
      obtain ⟨after, hafter, rfl⟩ := timedStep_moved hstep (by simp)
      cases hafter
      exact h.kept rfl rfl rfl rfl h.waiting h.idling
  | resume =>
      obtain ⟨after, hafter, rfl⟩ := timedStep_moved hstep (by simp)
      exact h.resume hidle hpos hafter
  | timeOut =>
      obtain ⟨after, hafter, rfl⟩ := timedStep_moved hstep (by simp)
      simp only [CodexTurn.step] at hafter
      split at hafter
      · rename_i timer hpoint
        exact h.timeOut hidle hpos hpoint hafter
      · cases hafter
  | answerIdle moves answer =>
      obtain ⟨after, hafter, rfl⟩ := timedStep_moved hstep (by simp)
      exact h.answerIdle hidle hpos hafter
  | answerAccount =>
      obtain ⟨after, hafter, rfl⟩ := timedStep_moved hstep (by simp)
      simp only [CodexTurn.step] at hafter
      split at hafter
      · cases hafter
        exact h.goOn rfl rfl rfl rfl (.inl rfl)
      · cases hafter
  | raise error =>
      obtain ⟨after, hafter, rfl⟩ := timedStep_moved hstep (by simp)
      simp only [CodexTurn.step] at hafter
      split at hafter
      · cases hafter
        exact h.goOn rfl rfl rfl rfl (.inr ⟨_, rfl⟩)
      · cases hafter

/-! ### When the wait times out -/

theorem handleIdle_timeoutError (before : Session) (hidle : options.idleS = some idle)
    (hbefore : before.clock - before.turnStartedAt < options.hardCapS)
    (hended : (before.handleIdle options).point = .ended .timeoutError) :
    options.hasOnIdle = false := by
  obtain ⟨-, -, hcap | hnone⟩ | ⟨hpoint, -⟩ | ⟨hpoint, -⟩ :=
    handleIdle_cases before hidle
  · exact absurd hcap (not_le.mpr hbefore)
  · exact hnone
  · cases hpoint.symm.trans hended
  · cases hpoint.symm.trans hended

section

variable {after : Session}

/-- What the turn does by itself before the hard cap times out only at the idle deadline. -/
theorem Within.resumed (h : Within options idle startedAt turn) (hidle : options.idleS = some idle)
    (hresume : turn.session.resume options = some after)
    (hcap : turn.session.clock - turn.session.turnStartedAt < options.hardCapS)
    (hpoint : after.point = .ended .timeoutError) :
    turn.extendedAt + idle ≤ turn.session.clock ∧ options.hasOnIdle = false := by
  unfold Session.resume at hresume
  split at hresume
  · simp only [h.deadline] at hresume
    split at hresume
    · rename_i hpassed
      cases hresume
      exact ⟨sub_nonpos.mp hpassed, handleIdle_timeoutError _ hidle hcap hpoint⟩
    · cases hresume
      cases hpoint
  · unfold Session.next at hresume
    split at hresume
    · cases hresume
      cases hpoint
    · split at hresume
      · cases hresume
      · cases hresume
        cases hpoint
      · rename_i note rest hqueue
        cases hresume
        have hhandled : ((turn.session.takes note rest).handle options note).point =
            .ended .timeoutError := hpoint
        obtain ⟨-, -, -, hskips⟩ | ⟨-, -, -, hyields⟩ :=
          handle_cases (turn.session.takes note rest) hidle note
        · rcases hskips with haccount | hchecking | hstale
          · cases haccount.symm.trans hhandled
          · cases hchecking.symm.trans hhandled
          · cases hstale.symm.trans hhandled
        · rcases hyields with hchecking | ⟨exit, hne, hexit⟩
          · cases hchecking.symm.trans hhandled
          · cases hexit.symm.trans hhandled
            exact absurd rfl hne
  · cases hresume
  · cases hresume
  · cases hresume

/-- A wait that is cancelled before the hard cap has lasted until the idle deadline. -/
theorem Within.lapsed (h : Within options idle startedAt turn) (hidle : options.idleS = some idle)
    {timer : ℚ} (hwaits : turn.session.point = .waiting (some timer))
    (hlapse : turn.session.timeOut options timer = some after)
    (hcap : turn.session.clock - turn.session.turnStartedAt < options.hardCapS)
    (hpoint : after.point = .ended .timeoutError) :
    turn.extendedAt + idle ≤ turn.session.clock ∧ options.hasOnIdle = false := by
  have htimer : timer = turn.extendedAt + idle := Option.some.inj (h.waiting _ hwaits).1
  unfold Session.timeOut at hlapse
  split at hlapse
  · rename_i hdue
    simp only at hlapse
    split at hlapse
    · cases hlapse
      cases hpoint
    · cases hlapse
      exact ⟨htimer ▸ hdue.1, handleIdle_timeoutError
        { turn.session with exhausted := true } hidle hcap hpoint⟩
  · cases hlapse

end

/-- Before the hard cap a turn times out only after an idle time, and for want of a callback that
answers true. -/
theorem Within.timedOut (h : Within options idle startedAt turn)
    (hidle : options.idleS = some idle) {action : Action}
    (hstep : timedStep options turn action = some next)
    (hopen : turn.session.exit? = none) (hended : next.session.exit? = some .timeoutError)
    (hbefore : turn.session.clock < startedAt + options.hardCapS) :
    turn.extendedAt + idle ≤ turn.session.clock ∧
      (options.hasOnIdle = false ∨ ∃ moves, action = .answerIdle moves false) := by
  have hcap : turn.session.clock - turn.session.turnStartedAt < options.hardCapS := by
    rw [h.started]
    linarith
  have hpoint : next.session.point = .ended .timeoutError := by
    unfold Session.exit? at hended
    split at hended
    · rename_i exit hexit
      cases hended
      exact hexit
    · cases hended
  have hgoes : ∀ {point : Point}, turn.session.point = point → point ≠ .ended .timeoutError := by
    rintro point rfl hsame
    simp [Session.exit?, hsame] at hopen
  by_cases helapse : ∃ duration, action = .elapse duration
  · obtain ⟨duration, rfl⟩ := helapse
    simp only [timedStep] at hstep
    split at hstep
    · cases hstep
      exact absurd hpoint (hgoes rfl)
    · cases hstep
  obtain ⟨after, hafter, rfl⟩ := timedStep_moved hstep fun duration hsame =>
    helapse ⟨duration, hsame⟩
  have hpoint : after.point = .ended .timeoutError := hpoint
  cases action with
  | elapse duration => exact absurd ⟨duration, rfl⟩ helapse
  | extend => cases hstep
  | arrive entry =>
      cases hafter
      exact absurd hpoint (hgoes rfl)
  | resume =>
      obtain ⟨hlate, hnone⟩ := h.resumed hidle hafter hcap hpoint
      exact ⟨hlate, .inl hnone⟩
  | timeOut =>
      simp only [CodexTurn.step] at hafter
      split at hafter
      · rename_i timer hwaits
        obtain ⟨hlate, hnone⟩ := h.lapsed hidle hwaits hafter hcap hpoint
        exact ⟨hlate, .inl hnone⟩
      · cases hafter
  | answerIdle moves answer =>
      simp only [CodexTurn.step] at hafter
      split at hafter
      · rename_i hidles
        cases answer with
        | false => exact ⟨(h.idling hidles).2, .inr ⟨moves, rfl⟩⟩
        | true =>
            cases hafter
            cases hpoint
      · cases hafter
  | answerAccount =>
      simp only [CodexTurn.step] at hafter
      split at hafter
      · cases hafter
        cases hpoint
      · cases hafter
  | raise error =>
      simp only [CodexTurn.step] at hafter
      split at hafter
      · cases hafter
        cases hpoint
      · cases hafter

/-! ### The turn does not stand still -/

/-- What is left to take from the queue; a cancelled wait takes nothing more. -/
def load (session : Session) : Nat :=
  session.queue.length + if session.exhausted then 0 else 1

/-- How many steps there are to the next wait; a deadline that has come asks for some more. -/
def stage (session : Session) : Nat :=
  match session.point with
  | .ended _ => 0
  | .waiting _ => 1
  | .idling => 3
  | .accounting => 5
  | .checking => if session.idleDeadline.all fun deadline => session.clock < deadline then 2 else 4

/-- How many steps a turn may take at one time, at most. -/
def burden (session : Session) : Nat := 10 * load session + stage session

theorem stage_le (session : Session) : stage session ≤ 5 := by
  unfold stage
  split
  · omega
  · omega
  · omega
  · omega
  · split <;> omega

theorem stage_ended {session : Session} {exit : Exit} (hpoint : session.point = .ended exit) :
    stage session = 0 := by
  simp [stage, hpoint]

theorem stage_checking {session : Session} (hpoint : session.point = .checking) :
    stage session ≤ 4 := by
  unfold stage
  rw [hpoint]
  simp only
  split <;> omega

theorem stage_ahead {session : Session} {deadline : ℚ} (hpoint : session.point = .checking)
    (hdeadline : session.idleDeadline = some deadline) (hahead : session.clock < deadline) :
    stage session = 2 := by
  simp [stage, hpoint, hdeadline, hahead]

theorem stage_passed {session : Session} {deadline : ℚ} (hpoint : session.point = .checking)
    (hdeadline : session.idleDeadline = some deadline) (hpassed : deadline ≤ session.clock) :
    stage session = 4 := by
  simp [stage, hpoint, hdeadline, not_lt.mpr hpassed]

theorem burden_of_load {session before : Session} (hload : load session < load before) :
    burden session < burden before := by
  have hstage := stage_le session
  unfold burden
  omega

theorem burden_of_stage {session before : Session} (hload : load session = load before)
    (hstage : stage session < stage before) : burden session < burden before := by
  unfold burden
  omega

theorem handleIdle_load (session : Session) : load (session.handleIdle options) = load session := by
  have hqueue : (session.handleIdle options).queue = session.queue :=
    congrArg Ledger.queue Session.handleIdle_ledger
  unfold load
  rw [hqueue, Session.handleIdle_exhausted]

theorem handleIdle_stage (session : Session) (hidle : options.idleS = some idle) (hpos : 0 < idle) :
    stage (session.handleIdle options) ≤ 3 := by
  obtain ⟨hpoint, -⟩ | ⟨hpoint, -⟩ | ⟨hpoint, hset, -⟩ := handleIdle_cases session hidle
  · rw [stage_ended hpoint]
    omega
  · simp [stage, hpoint]
  · have hclock := (@Session.handleIdle_stays options session).clock
    rw [stage_ahead hpoint hset (by rw [hclock]; exact lt_add_of_pos_right _ hpos)]
    omega

theorem handle_load (session : Session) (note : Notification) :
    load (session.handle options note) = load session := by
  unfold load
  rw [(Session.handle_queue note).1, Session.handle_exhausted]

theorem burden_resume {session after : Session} (hidle : options.idleS = some idle)
    (hpos : 0 < idle) {deadline : ℚ} (hdeadline : session.idleDeadline = some deadline)
    (hresume : session.resume options = some after) : burden after < burden session := by
  unfold Session.resume at hresume
  split at hresume
  · rename_i hpoint
    simp only [hdeadline] at hresume
    split at hresume
    · rename_i hpassed
      cases hresume
      refine burden_of_stage (handleIdle_load session) ?_
      rw [stage_passed hpoint hdeadline (sub_nonpos.mp hpassed)]
      exact Nat.lt_succ_of_le (handleIdle_stage session hidle hpos)
    · rename_i hahead
      cases hresume
      refine burden_of_stage rfl ?_
      rw [stage_ahead hpoint hdeadline (by simpa using hahead)]
      exact Nat.lt_succ_self 1
  · rename_i timer hpoint
    unfold Session.next at hresume
    split at hresume
    · cases hresume
      refine burden_of_stage rfl ?_
      rw [stage_ended rfl]
      simp [stage, hpoint]
    · rename_i hopen
      split at hresume
      · cases hresume
      · rename_i rest hqueue
        cases hresume
        refine burden_of_load ?_
        simp only [load, Session.endWith, hqueue, hopen, List.length_cons, if_true]
        omega
      · rename_i note rest hqueue
        cases hresume
        refine burden_of_load ((handle_load _ note).trans_lt ?_)
        simp [load, hqueue, hopen]
  · cases hresume
  · cases hresume
  · cases hresume

theorem burden_timeOut {session after : Session} {timer : ℚ}
    (htimeOut : session.timeOut options timer = some after) : burden after < burden session := by
  unfold Session.timeOut at htimeOut
  split at htimeOut
  · rename_i hdue
    have hopen : session.exhausted = false := by
      simpa using hdue.2
    simp only at htimeOut
    split at htimeOut
    · cases htimeOut
      refine burden_of_load ?_
      simp [load, hopen]
    · cases htimeOut
      refine burden_of_load ((handleIdle_load _).trans_lt ?_)
      simp [load, hopen]
  · cases htimeOut

/-- An answer true without an extension leads back to the check of a deadline that has come; any
other leads on. -/
theorem burden_answerIdle {session after : Session} (hidle : options.idleS = some idle)
    (hpos : 0 < idle) {moves answer : Bool}
    (hstep : step options session (.answerIdle moves answer) = some after) :
    burden after < burden session + if (Action.answerIdle moves answer).spins then 2 else 0 := by
  simp only [step] at hstep
  split at hstep
  · rename_i hpoint
    have hstage : stage session = 3 := by
      simp [stage, hpoint]
    cases answer with
    | false =>
        have hless : stage after < stage session := by
          cases hstep
          rw [hstage, stage_ended rfl]
          omega
        have hload : load after = load session := by
          cases moves <;> cases hstep
          · rfl
          · simp [load, Session.endWith, Session.extendIdleDeadline, hidle]
        exact (burden_of_stage hload hless).trans_le (Nat.le_add_right _ _)
    | true =>
        cases moves with
        | false =>
            simp only [Bool.false_eq_true, if_false, if_true, Option.some.injEq] at hstep
            have hload : load after = load session := by
              rw [← hstep]
              rfl
            have hle : stage after ≤ 4 := stage_checking (by rw [← hstep])
            simp only [burden, hload, hstage, Action.spins, Bool.not_false, Bool.and_self, if_true]
            omega
        | true =>
            simp only [if_true, Session.extendIdleDeadline, hidle, Option.some.injEq] at hstep
            have hload : load after = load session := by
              rw [← hstep]
              rfl
            have hahead : stage after = 2 := by
              rw [← hstep]
              exact stage_ahead rfl rfl (lt_add_of_pos_right _ hpos)
            exact (burden_of_stage hload (by omega)).trans_le (Nat.le_add_right _ _)
  · cases hstep

theorem Within.burden_step (h : Within options idle startedAt turn)
    (hidle : options.idleS = some idle) (hpos : 0 < idle) {action : Action}
    (hprompt : action.prompt = true) (hstep : timedStep options turn action = some next) :
    burden next.session < burden turn.session + if action.spins then 2 else 0 := by
  obtain ⟨after, hafter, rfl⟩ := timedStep_moved hstep fun duration htime => by
    simp [htime, Action.prompt] at hprompt
  show burden after < _
  cases action with
  | resume => exact burden_resume hidle hpos h.deadline hafter
  | timeOut =>
      simp only [CodexTurn.step] at hafter
      split at hafter
      · exact burden_timeOut hafter
      · cases hafter
  | answerIdle moves answer => exact burden_answerIdle hidle hpos hafter
  | answerAccount =>
      simp only [CodexTurn.step] at hafter
      split at hafter
      · rename_i hpoint
        have hfive : stage turn.session = 5 := by
          simp [stage, hpoint]
        cases hafter
        refine burden_of_stage rfl ?_
        rw [hfive]
        exact Nat.lt_succ_of_le (stage_checking rfl)
      · cases hafter
  | raise error =>
      simp only [CodexTurn.step] at hafter
      split at hafter
      · rename_i hpoint
        cases hafter
        refine burden_of_stage rfl ?_
        rw [stage_ended rfl]
        rcases hpoint with hpoint | hpoint <;> simp [stage, hpoint]
      · cases hafter
  | arrive entry => cases hprompt
  | elapse duration => cases hprompt
  | extend => cases hprompt

/-- **At one time.** Every step brings the next wait closer, but for an answer that is asked for
again. -/
theorem Within.burden_run (h : Within options idle startedAt turn)
    (hidle : options.idleS = some idle) (hpos : 0 < idle) {actions : List Action}
    (hprompt : ∀ action ∈ actions, action.prompt = true)
    (hrun : run (timedStep options) turn actions = some next) :
    actions.length + burden next.session ≤
      burden turn.session + 2 * actions.countP Action.spins := by
  induction actions generalizing turn with
  | nil =>
      cases hrun
      simp
  | cons action rest ih =>
      obtain ⟨middle, hfirst, hrest⟩ := Option.bind_eq_some_iff.mp hrun
      have hless := h.burden_step hidle hpos (hprompt action List.mem_cons_self) hfirst
      have hthen := ih (h.step hidle hpos hfirst)
        (fun action hmem => hprompt action (List.mem_cons_of_mem _ hmem)) hrest
      rw [List.length_cons, List.countP_cons]
      split <;> rename_i hspins <;>
        simp only [hspins, if_true, Bool.false_eq_true, if_false] at hless <;> omega

theorem timedStep_of_step {action : Action} {after : Session} (hprompt : action.prompt = true)
    (hafter : step options turn.session action = some after) :
    timedStep options turn action = some (turn.moved after) := by
  cases action with
  | arrive entry => cases hprompt
  | elapse duration => cases hprompt
  | extend => cases hprompt
  | _ => simp [timedStep, hafter]

/-- Until it is over, a turn has a step to take or waits for a deadline that is ahead. -/
theorem Within.going (h : Within options idle startedAt turn) (hopen : turn.session.exit? = none) :
    (∃ action next, action.prompt = true ∧ timedStep options turn action = some next) ∨
      ∃ timer, turn.session.point = .waiting (some timer) ∧ turn.session.clock < timer ∧
        timer ≤ max turn.yieldedAt (startedAt + options.hardCapS) + idle := by
  have hsteps : ∀ {action : Action}, action.prompt = true →
      (CodexTurn.step options turn.session action).isSome = true →
      ∃ action next, action.prompt = true ∧ timedStep options turn action = some next := by
    intro action hprompt hsome
    obtain ⟨after, hafter⟩ := Option.isSome_iff_exists.mp hsome
    exact ⟨action, _, hprompt, timedStep_of_step hprompt hafter⟩
  cases hpoint : turn.session.point with
  | checking =>
      refine .inl (hsteps (rfl : Action.resume.prompt = true) ?_)
      simp only [CodexTurn.step, Session.resume, hpoint, h.deadline]
      split <;> rfl
  | waiting timer =>
      obtain ⟨rfl, -⟩ := h.waiting timer hpoint
      by_cases hahead : turn.session.clock < turn.extendedAt + idle
      · exact .inr ⟨_, rfl, hahead, add_le_add_left h.reach idle⟩
      · cases hexhausted : turn.session.exhausted with
        | true =>
            refine .inl (hsteps (rfl : Action.resume.prompt = true) ?_)
            simp [CodexTurn.step, Session.resume, hpoint, Session.next, hexhausted]
        | false =>
            refine .inl (hsteps (rfl : Action.timeOut.prompt = true) ?_)
            simp only [CodexTurn.step, hpoint, Session.timeOut, not_lt.mp hahead, hexhausted,
              Bool.not_false, and_self, if_true]
            split <;> rfl
  | idling =>
      refine .inl (hsteps (rfl : (Action.answerIdle false false).prompt = true) ?_)
      simp [CodexTurn.step, hpoint]
  | accounting =>
      refine .inl (hsteps (rfl : Action.answerAccount.prompt = true) ?_)
      simp [CodexTurn.step, hpoint]
  | ended exit => simp [Session.exit?, hpoint] at hopen

/-- A note that is not for the turn leaves the deadline. -/
theorem timedStep_unmoved (hidle : options.idleS = some idle) {timer : Option ℚ}
    {note : Notification} {rest : List (Option Notification)}
    (hpoint : turn.session.point = .waiting timer) (hqueue : turn.session.queue = some note :: rest)
    (hpasses : note.passes options.turnId = false)
    (hstep : timedStep options turn .resume = some next) :
    next.session.idleDeadline = turn.session.idleDeadline ∧ next.extendedAt = turn.extendedAt := by
  obtain ⟨after, hafter, rfl⟩ := timedStep_moved hstep (by simp)
  have hkept : after.idleDeadline = turn.session.idleDeadline := by
    have hresume : turn.session.resume options = turn.session.next options := by
      simp only [Session.resume, hpoint]
    simp only [CodexTurn.step, hresume, Session.next, hqueue] at hafter
    split at hafter
    · cases hafter
      rfl
    · cases hafter
      obtain ⟨-, hkept, -⟩ | ⟨htrue, -⟩ :=
        handle_cases (turn.session.takes note rest) hidle note
      · exact hkept
      · cases hpasses.symm.trans htrue
  exact ⟨hkept, by simp [TimedTurn.moved, hkept]⟩

/-! ### The bound -/

/-- What the hard cap promises of a turn that began at `startedAt`. -/
structure Bounded (options : Options) (idle startedAt : ℚ) (turn : TimedTurn) : Prop where
  /-- The time of a turn, the time of its end once it is over. -/
  clock : turn.session.clock ≤ max turn.yieldedAt (startedAt + options.hardCapS) + idle
  /-- Time alone does not keep it from its end: it waits for a deadline ahead, or takes a step. -/
  going : turn.session.exit? = none →
    (∃ action next, action.prompt = true ∧ timedStep options turn action = some next) ∨
      ∃ timer, turn.session.point = .waiting (some timer) ∧ turn.session.clock < timer ∧
        timer ≤ max turn.yieldedAt (startedAt + options.hardCapS) + idle
  /-- It takes finitely many steps at a time, -/
  brief : ∀ actions next, (∀ action ∈ actions, action.prompt = true) →
    run (timedStep options) turn actions = some next →
    actions.length ≤ burden turn.session + 2 * actions.countP Action.spins
  /-- and asks `on_idle`, which may answer true without moving the deadline, before the cap only. -/
  asked : turn.session.point = .idling → turn.session.clock < startedAt + options.hardCapS
  unmoved : ∀ timer note rest next, turn.session.point = .waiting timer →
    turn.session.queue = some note :: rest → note.passes options.turnId = false →
    timedStep options turn .resume = some next →
    next.session.idleDeadline = turn.session.idleDeadline ∧ next.extendedAt = turn.extendedAt
  timedOut : ∀ action next, timedStep options turn action = some next →
    turn.session.exit? = none → next.session.exit? = some .timeoutError →
    turn.session.clock < startedAt + options.hardCapS →
    turn.extendedAt + idle ≤ turn.session.clock ∧
      (options.hasOnIdle = false ∨ ∃ moves, action = .answerIdle moves false)

theorem Within.bounded (h : Within options idle startedAt turn)
    (hidle : options.idleS = some idle) (hpos : 0 < idle) :
    Bounded options idle startedAt turn where
  clock := h.clock
  going := h.going
  brief := fun _ _ hprompt hrun =>
    (Nat.le_add_right _ _).trans (h.burden_run hidle hpos hprompt hrun)
  asked := fun hpoint => (h.idling hpoint).1
  unmoved := fun _ _ _ _ => timedStep_unmoved hidle
  timedOut := fun _ _ => h.timedOut hidle

end

end CodexServer.CodexTurn
