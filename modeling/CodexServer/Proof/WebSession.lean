import CodexServer.WebSession

/-!
# One Refresh at a time

However the calls of a tab interleave, at most one Refresh is in flight and every call that has had a
401 awaits that one. Refresh goes through the interceptor itself. One that is answered a 401 awaits
its own promise, and with it whatever has a 401 from then on.
-/

open Transition

namespace CodexServer.WebSession

/-! ### The calls after an operation -/

section

variable {tab next : Tab} {id target flight : Nat} {call before : Call} {kind : CallKind}
  {stage : Stage} {refreshed : Bool} {action : Action}

theorem Tab.send_calls : (tab.send kind).calls[id]? = some call ↔
    tab.calls[id]? = some call ∨ (id = tab.calls.length ∧ call = ⟨kind, .sent⟩) := by
  simp only [Tab.send, List.getElem?_append, List.getElem?_singleton]
  by_cases hid : id < tab.calls.length
  · have hne : id ≠ tab.calls.length := by omega
    simp [hid, hne]
  · rw [if_neg hid, List.getElem?_eq_none (Nat.le_of_not_lt hid)]
    by_cases hlast : id = tab.calls.length
    · simp [hlast, eq_comm]
    · have hlater : id - tab.calls.length ≠ 0 := by omega
      simp [hlast, hlater]

theorem Tab.setStage_calls : (tab.setStage target stage).calls[id]? = some call ↔
    (target ≠ id ∧ tab.calls[id]? = some call) ∨
      (target = id ∧ ∃ before, tab.calls[id]? = some before ∧ call = { before with stage := stage }) := by
  simp only [Tab.setStage, List.getElem?_modify]
  by_cases hid : target = id
  · simp [hid, eq_comm]
  · simp [hid]

theorem Tab.land_calls : (tab.land flight refreshed).calls[id]? = some call ↔
    ∃ before, tab.calls[id]? = some before ∧ call = before.resume flight refreshed := by
  simp [Tab.land, eq_comm]

theorem Call.resume_kind : (before.resume flight refreshed).kind = before.kind := by
  unfold Call.resume
  split <;> rfl

theorem Call.resume_settled {ok : Bool} (h : before.stage = .settled ok) :
    before.resume flight refreshed = before := by
  simp [Call.resume, h]

/-- Who awaits another promise goes on awaiting it. -/
theorem Call.resume_waiting (h : (before.resume flight refreshed).stage = .waiting target) :
    before.stage = .waiting target ∧ target ≠ flight := by
  unfold Call.resume at h
  split at h
  · cases refreshed <;> cases h
  · rename_i hother
    refine ⟨h, ?_⟩
    rintro rfl
    exact hother h

/-! ### The invariant -/

/-- Who awaits what. -/
structure Tab.Flights (tab : Tab) : Prop where
  flight : ∀ flight, tab.refreshInFlight = some flight → tab.calls[flight]? = some ⟨.refresh, .sent⟩ ∨
    tab.calls[flight]? = some ⟨.refresh, .waiting flight⟩
  single : ∀ (id : Nat) call, tab.calls[id]? = some call → call.kind = .refresh →
    (∃ ok, call.stage = .settled ok) ∨ tab.refreshInFlight = some id
  waiting : ∀ (id : Nat) call flight, tab.calls[id]? = some call → call.stage = .waiting flight →
    tab.refreshInFlight = some flight

/-- What holds of a tab between two events. -/
structure Tab.Sound (tab : Tab) : Prop extends Tab.Flights tab where
  timed : tab.refreshTimer.isSome = true → tab.signedIn = true
  kept : tab.signedIn = true → tab.refreshTimer.isSome = true ∨ tab.refreshInFlight.isSome = true
  unloaded : tab.refreshFn = false → tab.refreshTimer = none ∧ tab.refreshInFlight = none ∧
    ∀ (id : Nat) call, tab.calls[id]? = some call → call.kind = .plain

theorem Tab.start_sound : Tab.start.Sound where
  flight _ h := by cases h
  single _ _ h := by simp [Tab.start] at h
  waiting _ _ _ h := by simp [Tab.start] at h
  timed h := by cases h
  kept h := by cases h
  unloaded _ := ⟨rfl, rfl, fun _ _ h => by simp [Tab.start] at h⟩

theorem Tab.Flights.send (h : tab.Flights) (hkind : kind ≠ .refresh) : (tab.send kind).Flights where
  flight flight hflight :=
    (h.flight flight hflight).imp (fun hcall => Tab.send_calls.mpr (.inl hcall))
      fun hcall => Tab.send_calls.mpr (.inl hcall)
  single id call hcall hrefresh := by
    rcases Tab.send_calls.mp hcall with hcall | ⟨_, rfl⟩
    · exact h.single id call hcall hrefresh
    · exact absurd hrefresh hkind
  waiting id call flight hcall hwaiting := by
    rcases Tab.send_calls.mp hcall with hcall | ⟨_, rfl⟩
    · exact h.waiting id call flight hcall hwaiting
    · cases hwaiting

theorem Tab.refresh_flight : tab.refresh.2.refreshInFlight = some tab.refresh.1 := by
  unfold Tab.refresh
  split
  · assumption
  · rfl

theorem Tab.refresh_calls (hcall : tab.calls[id]? = some call) :
    tab.refresh.2.calls[id]? = some call := by
  unfold Tab.refresh
  split
  · exact hcall
  · exact Tab.send_calls.mpr (.inl hcall)

theorem Tab.refresh_timer : tab.refresh.2.refreshTimer = tab.refreshTimer := by
  unfold Tab.refresh
  split <;> rfl

theorem Tab.refresh_signedIn : tab.refresh.2.signedIn = tab.signedIn := by
  unfold Tab.refresh
  split <;> rfl

theorem Tab.refresh_fn : tab.refresh.2.refreshFn = tab.refreshFn := by
  unfold Tab.refresh
  split <;> rfl

/-- `auth.refresh` starts a Refresh if there is none. -/
theorem Tab.Flights.refresh (h : tab.Flights) : tab.refresh.2.Flights := by
  unfold Tab.refresh
  cases hflight : tab.refreshInFlight with
  | some flight => exact h
  | none =>
      exact {
        flight := fun flight hnew => by
          obtain rfl := Option.some.inj hnew
          exact .inl (Tab.send_calls.mpr (.inr ⟨rfl, rfl⟩))
        single := fun id call hcall hrefresh => by
          rcases Tab.send_calls.mp hcall with hcall | ⟨rfl, _⟩
          · refine .inl ((h.single id call hcall hrefresh).resolve_right ?_)
            simp [hflight]
          · exact .inr rfl
        waiting := fun id call flight hcall hwaiting => by
          rcases Tab.send_calls.mp hcall with hcall | ⟨_, rfl⟩
          · cases hflight.symm.trans (h.waiting id call flight hcall hwaiting)
          · cases hwaiting }

/-- A call that has had a 401 awaits the Refresh in flight. -/
theorem Tab.Flights.await (h : tab.Flights) (hflight : tab.refreshInFlight = some flight)
    (hcall : tab.calls[id]? = some call) (hsent : call.stage = .sent) :
    (tab.setStage id (.waiting flight)).Flights where
  flight other hother := by
    obtain rfl := Option.some.inj (hflight.symm.trans hother)
    by_cases hid : id = flight
    · subst hid
      right
      rcases h.flight id hflight with hrefresh | hrefresh
      · exact Tab.setStage_calls.mpr (.inr ⟨rfl, _, hrefresh, rfl⟩)
      · obtain rfl := Option.some.inj (hcall.symm.trans hrefresh)
        cases hsent
    · exact (h.flight flight hflight).imp (fun hcall => Tab.setStage_calls.mpr (.inl ⟨hid, hcall⟩))
        fun hcall => Tab.setStage_calls.mpr (.inl ⟨hid, hcall⟩)
  single other later hlater hrefresh := by
    rcases Tab.setStage_calls.mp hlater with ⟨_, hlater⟩ | ⟨rfl, before, hbefore, rfl⟩
    · exact h.single other later hlater hrefresh
    · obtain rfl := Option.some.inj (hcall.symm.trans hbefore)
      refine .inr ((h.single id call hbefore hrefresh).resolve_left ?_)
      simp [hsent]
  waiting other later target hlater hwaiting := by
    rcases Tab.setStage_calls.mp hlater with ⟨_, hlater⟩ | ⟨_, before, _, rfl⟩
    · exact h.waiting other later target hlater hwaiting
    · cases hwaiting
      exact hflight

/-- A call that is no Refresh settles. -/
theorem Tab.Flights.close (h : tab.Flights) (hcall : tab.calls[id]? = some call)
    (hkind : call.kind ≠ .refresh) (ok : Bool) : (tab.setStage id (.settled ok)).Flights where
  flight flight hflight := by
    have hother : id ≠ flight := by
      rintro rfl
      rcases h.flight id hflight with hrefresh | hrefresh <;>
      · obtain rfl := Option.some.inj (hcall.symm.trans hrefresh)
        exact hkind rfl
    exact (h.flight flight hflight).imp (fun hcall => Tab.setStage_calls.mpr (.inl ⟨hother, hcall⟩))
      fun hcall => Tab.setStage_calls.mpr (.inl ⟨hother, hcall⟩)
  single other later hlater hrefresh := by
    rcases Tab.setStage_calls.mp hlater with ⟨_, hlater⟩ | ⟨_, before, _, rfl⟩
    · exact h.single other later hlater hrefresh
    · exact .inl ⟨ok, rfl⟩
  waiting other later target hlater hwaiting := by
    rcases Tab.setStage_calls.mp hlater with ⟨_, hlater⟩ | ⟨_, before, _, rfl⟩
    · exact h.waiting other later target hlater hwaiting
    · cases hwaiting

/-- The calls when the Refresh in flight settles. -/
theorem Tab.Flights.landed (h : tab.Flights) (hflight : tab.refreshInFlight = some flight) {ok : Bool}
    {after : Tab} (hcalls : after.calls = (tab.setStage flight (.settled ok)).calls) :
    (after.land flight refreshed).Flights where
  flight _ hnone := by cases hnone
  single id later hlater hrefresh := by
    left
    obtain ⟨before, hbefore, rfl⟩ := Tab.land_calls.mp hlater
    rw [Call.resume_kind] at hrefresh
    rw [hcalls] at hbefore
    obtain ⟨done, hdone⟩ : ∃ done, before.stage = .settled done := by
      rcases Tab.setStage_calls.mp hbefore with ⟨hother, hbefore⟩ | ⟨_, first, _, rfl⟩
      · exact (h.single id before hbefore hrefresh).resolve_right fun hits =>
          hother (Option.some.inj (hflight.symm.trans hits))
      · exact ⟨ok, rfl⟩
    rw [Call.resume_settled hdone]
    exact ⟨done, hdone⟩
  waiting id later target hlater hwaiting := by
    obtain ⟨before, hbefore, rfl⟩ := Tab.land_calls.mp hlater
    obtain ⟨hwaits, hother⟩ := Call.resume_waiting hwaiting
    rw [hcalls] at hbefore
    rcases Tab.setStage_calls.mp hbefore with ⟨_, hbefore⟩ | ⟨_, first, _, rfl⟩
    · have hits := h.waiting id before target hbefore hwaits
      exact absurd (Option.some.inj (hits.symm.trans hflight)) hother
    · cases hwaits

/-! ### Steps -/

/-- The request of the call is on its way. -/
def Stage.isSent : Stage → Bool
  | sent | retried => true
  | waiting _ | settled _ => false

def Stage.isSettled : Stage → Bool
  | settled _ => true
  | sent | retried | waiting _ => false

/-- What a step of a tab is. -/
inductive Tab.Steps (tab : Tab) : Action → Tab → Prop
  | load (hunloaded : tab.refreshFn = false) :
      Steps tab .load { tab.refresh.2 with refreshFn := true }
  | call (action : Action) (kind : CallKind) (hkind : kind ≠ .refresh)
      (hloaded : kind = .plain ∨ tab.refreshFn = true)
      (hanswer : ∀ id reply, action ≠ .answer id reply) : Steps tab action (tab.send kind)
  | logout (hloaded : tab.refreshFn = true) :
      Steps tab .logout ({ tab with signedIn := false }.cancelTimer.send (.logout tab.signedIn))
  | fire (htimer : tab.refreshTimer.isSome = true) : Steps tab .fire tab.cancelTimer.refresh.2
  | refused (id : Nat) (call : Call) (hcall : tab.calls[id]? = some call) (hsent : call.stage = .sent)
      (hloaded : tab.refreshFn = true) : Steps tab (.answer id .unauthenticated)
        (tab.refresh.2.setStage id (.waiting tab.refresh.1))
  | settled (id : Nat) (reply : Reply) (call : Call) (result : Option Int)
      (hcall : tab.calls[id]? = some call) (hsent : call.stage.isSent = true)
      (hreply : reply = .unauthenticated → call.stage = .sent → tab.refreshFn = false) :
      Steps tab (.answer id reply) (tab.settle id call.kind result)

theorem Tab.steps_of_step (h : tab.step action = some next) : tab.Steps action next := by
  cases action with
  | load =>
      simp only [Tab.step] at h
      split at h
      · cases h
      · rename_i hunloaded
        cases h
        exact .load (by simpa using hunloaded)
  | call =>
      cases h
      exact .call .call .plain (fun hkind => by cases hkind) (.inl rfl) fun _ _ heq => by cases heq
  | login | register =>
      simp only [Tab.step] at h
      split at h
      · rename_i hloaded
        cases h
        exact .call _ _ (fun hkind => by cases hkind) (.inr hloaded) fun _ _ heq => by cases heq
      · cases h
  | logout =>
      simp only [Tab.step] at h
      split at h
      · rename_i hloaded
        cases h
        exact .logout hloaded
      · cases h
  | fire =>
      simp only [Tab.step] at h
      split at h
      · rename_i htimer
        cases h
        exact .fire htimer
      · cases h
  | answer id reply =>
      simp only [Tab.step, Tab.answer] at h
      split at h
      · cases h
      · rename_i call hcall
        split at h
        · rename_i hsent
          split at h
          · rename_i hloaded
            cases h
            exact .refused id call hcall hsent hloaded
          · rename_i hunloaded
            cases h
            exact .settled id _ call none hcall (by simp [hsent, Stage.isSent])
              fun _ _ => by simpa using hunloaded
        · rename_i hsent
          cases h
          exact .settled id _ call _ hcall (by simp [hsent, Stage.isSent]) fun heq => by cases heq
        · rename_i hsent
          cases h
          exact .settled id _ call _ hcall (by simp [hsent, Stage.isSent]) fun heq => by cases heq
        · rename_i hsent
          cases h
          exact .settled id _ call _ hcall (by simp [hsent, Stage.isSent]) fun heq => by cases heq
        · rename_i hsent _
          cases h
          exact .settled id _ call _ hcall (by simp [hsent, Stage.isSent])
            fun _ heq => by cases hsent.symm.trans heq
        · cases h
        · cases h

/-- `auth.ts` is loaded before anything but an RPC of a component is called. -/
theorem Tab.Sound.loaded (h : tab.Sound) (hcall : tab.calls[id]? = some call)
    (hkind : call.kind ≠ .plain) : tab.refreshFn = true := by
  by_contra hunloaded
  exact hkind ((h.unloaded (by simpa using hunloaded)).2.2 id call hcall)

/-- An operation after which `auth.ts` is loaded. -/
theorem Tab.Flights.sound (h : tab.Flights) (hloaded : tab.refreshFn = true)
    (htimed : tab.refreshTimer.isSome = true → tab.signedIn = true)
    (hkept : tab.signedIn = true → tab.refreshTimer.isSome = true ∨ tab.refreshInFlight.isSome = true) :
    tab.Sound where
  toFlights := h
  timed := htimed
  kept := hkept
  unloaded hunloaded := by cases hloaded.symm.trans hunloaded

/-- A call settles. -/
theorem Tab.Sound.settle (h : tab.Sound) (hcall : tab.calls[id]? = some call)
    (hsent : call.stage.isSent = true) (result : Option Int) :
    (tab.settle id call.kind result).Sound := by
  have hloaded := h.loaded hcall
  obtain ⟨kind, stage⟩ := call
  have hclose (hkind : kind ≠ .refresh) (ok : Bool) := h.toFlights.close hcall hkind ok
  cases kind with
  | plain =>
      have hdone : (tab.setStage id (.settled result.isSome)).Sound := {
        toFlights := hclose (fun hkind => by cases hkind) _
        timed := h.timed
        kept := h.kept
        unloaded := fun hunloaded => by
          obtain ⟨htimer, hflight, hplain⟩ := h.unloaded hunloaded
          refine ⟨htimer, hflight, fun other later hlater => ?_⟩
          rcases Tab.setStage_calls.mp hlater with ⟨_, hlater⟩ | ⟨_, before, hbefore, rfl⟩
          · exact hplain other later hlater
          · exact hplain other before hbefore }
      cases result <;> exact hdone
  | login | register =>
      have hdone := hclose (fun hkind => by cases hkind) result.isSome
      have hthere := hloaded fun hkind => by cases hkind
      cases result with
      | none => exact hdone.sound hthere h.timed h.kept
      | some expiresIn =>
          have hflights : (((tab.setStage id (.settled true)).signIn expiresIn).dispatchEvent
              .login).Flights := ⟨hdone.flight, hdone.single, hdone.waiting⟩
          exact hflights.sound hthere (fun _ => rfl) fun _ => .inl rfl
  | refresh =>
      have hthere := hloaded fun hkind => by cases hkind
      have hflight : tab.refreshInFlight = some id := by
        refine (h.single id _ hcall rfl).resolve_left ?_
        rintro ⟨ok, rfl⟩
        cases hsent
      cases result with
      | none =>
          have hflights : (({ tab.setStage id (.settled false) with
              signedIn := false } : Tab).cancelTimer.land id false).Flights := h.landed hflight rfl
          exact hflights.sound hthere (fun htimer => by cases htimer) fun hsigned => by cases hsigned
      | some expiresIn =>
          have hflights (renewed : Tab)
              (hcalls : renewed.calls = (tab.setStage id (.settled true)).calls) :
              (renewed.land id true).Flights := h.landed hflight hcalls
          simp only [Tab.settle]
          split
          · exact (hflights ((tab.setStage id (.settled true)).signIn expiresIn) rfl).sound hthere
              (fun _ => rfl) fun _ => .inl rfl
          · exact (hflights (((tab.setStage id (.settled true)).signIn expiresIn).dispatchEvent
              .login) rfl).sound hthere (fun _ => rfl) fun _ => .inl rfl
  | logout wasSignedIn =>
      have hdone := hclose (fun hkind => by cases hkind) result.isSome
      have hthere := hloaded fun hkind => by cases hkind
      have hflights : ((tab.setStage id (.settled result.isSome)).dispatchEvent .logout).Flights :=
        ⟨hdone.flight, hdone.single, hdone.waiting⟩
      simp only [Tab.settle]
      split
      · exact hflights.sound hthere h.timed h.kept
      · exact hdone.sound hthere h.timed h.kept

theorem Tab.Sound.step (h : tab.Sound) (hsteps : tab.Steps action next) : next.Sound := by
  cases hsteps with
  | load hunloaded =>
      obtain ⟨htimer, _, _⟩ := h.unloaded hunloaded
      have hrefresh := h.toFlights.refresh
      have hflights : ({ tab.refresh.2 with refreshFn := true } : Tab).Flights :=
        ⟨hrefresh.flight, hrefresh.single, hrefresh.waiting⟩
      refine hflights.sound rfl (fun hsome => ?_) fun _ => .inr (by simp [Tab.refresh_flight])
      have hnone : tab.refresh.2.refreshTimer = none := Tab.refresh_timer.trans htimer
      simp [hnone] at hsome
  | call action kind hkind hloaded =>
      refine ⟨h.toFlights.send hkind, h.timed, h.kept, fun hunloaded => ?_⟩
      have hfalse : tab.refreshFn = false := hunloaded
      obtain ⟨htimer, hflight, hplain⟩ := h.unloaded hfalse
      refine ⟨htimer, hflight, fun id call hcall => ?_⟩
      rcases Tab.send_calls.mp hcall with hcall | ⟨_, rfl⟩
      · exact hplain id call hcall
      · exact hloaded.resolve_right (by simp [hfalse])
  | logout hloaded =>
      have hflights : ({ tab with signedIn := false }.cancelTimer).Flights :=
        ⟨h.flight, h.single, h.waiting⟩
      exact (hflights.send fun hkind => by cases hkind).sound hloaded (fun htimer => by cases htimer)
        fun hsigned => by cases hsigned
  | fire htimer =>
      have hloaded : tab.refreshFn = true := by
        by_contra hunloaded
        simp [(h.unloaded (by simpa using hunloaded)).1] at htimer
      have hflights : tab.cancelTimer.Flights := ⟨h.flight, h.single, h.waiting⟩
      refine hflights.refresh.sound (Tab.refresh_fn.trans hloaded) (fun hsome => ?_)
        fun _ => .inr (by simp [Tab.refresh_flight])
      have hnone : tab.cancelTimer.refresh.2.refreshTimer = none := Tab.refresh_timer
      simp [hnone] at hsome
  | refused id call hcall hsent hloaded =>
      refine (h.toFlights.refresh.await Tab.refresh_flight (Tab.refresh_calls hcall) hsent).sound
        (Tab.refresh_fn.trans hloaded) (fun htimer => ?_)
        fun _ => .inr (Option.isSome_iff_exists.mpr ⟨_, Tab.refresh_flight⟩)
      have hbefore : tab.refreshTimer.isSome = true := by rwa [← Tab.refresh_timer]
      exact Tab.refresh_signedIn.trans (h.timed hbefore)
  | settled id reply call result hcall hsent => exact h.settle hcall hsent result

theorem reach_sound {Allowed : Tab → Action → Prop}
    (hreach : Reach Tab.step Allowed Tab.start tab) : tab.Sound :=
  hreach.invariant Tab.Sound Tab.start_sound fun _ _ _ h _ hstep => h.step (Tab.steps_of_step hstep)

/-! ### A Refresh that awaits itself -/

/-- The Refresh in flight has had a 401. -/
def Tab.hangs (flight : Nat) (tab : Tab) : Prop :=
  tab.refreshInFlight = some flight ∧ tab.calls[flight]? = some ⟨.refresh, .waiting flight⟩

/-- Every call that awaits a Refresh awaits one whose request is on its way. -/
def Tab.settles (tab : Tab) : Prop :=
  ∀ (id : Nat) call flight, tab.calls[id]? = some call → call.stage = .waiting flight →
    tab.calls[flight]? = some ⟨.refresh, .sent⟩

/-- No Refresh is answered a 401. -/
def Tab.accepts (tab : Tab) : Action → Bool
  | .answer id .unauthenticated => (tab.calls[id]?).all fun call => call.kind ≠ .refresh
  | _ => true

theorem Tab.Sound.settles_iff (h : tab.Sound) : tab.settles ↔ ∀ flight, ¬ tab.hangs flight := by
  constructor
  · rintro hsettles flight ⟨_, hcall⟩
    cases hcall.symm.trans (hsettles flight _ flight hcall rfl)
  · intro hfree id call flight hcall hwaiting
    have hflight := h.waiting id call flight hcall hwaiting
    exact (h.flight flight hflight).resolve_right fun hself => hfree flight ⟨hflight, hself⟩

theorem Tab.refresh_of_flight (hflight : tab.refreshInFlight = some flight) :
    tab.refresh = (flight, tab) := by
  simp [Tab.refresh, hflight]

/-- A Refresh that has just been sent does not hang. -/
theorem Tab.refresh_hangs (hhangs : tab.refresh.2.hangs flight) : tab.hangs flight := by
  cases hflight : tab.refreshInFlight with
  | some other => rwa [Tab.refresh_of_flight hflight] at hhangs
  | none =>
      simp only [Tab.refresh, hflight, Tab.hangs] at hhangs
      obtain ⟨hnew, hcall⟩ := hhangs
      obtain rfl := Option.some.inj hnew
      rcases Tab.send_calls.mp hcall with hold | ⟨_, hnew⟩
      · simp at hold
      · cases hnew

theorem Tab.settle_frame (tab : Tab) (id : Nat) (hkind : kind ≠ .refresh) (result : Option Int) :
    (tab.settle id kind result).calls = (tab.setStage id (.settled result.isSome)).calls ∧
      (tab.settle id kind result).refreshInFlight = tab.refreshInFlight := by
  cases kind with
  | refresh => exact absurd rfl hkind
  | plain | login | register => cases result <;> exact ⟨rfl, rfl⟩
  | logout wasSignedIn => cases wasSignedIn <;> exact ⟨rfl, rfl⟩

/-- A Refresh whose request is on its way is the one in flight. -/
theorem Tab.Sound.refreshing (h : tab.Sound) (hcall : tab.calls[id]? = some call)
    (hkind : call.kind = .refresh) (hsent : call.stage.isSent = true) :
    tab.refreshInFlight = some id ∧ call = ⟨.refresh, .sent⟩ := by
  have hflight : tab.refreshInFlight = some id := by
    refine (h.single id call hcall hkind).resolve_left ?_
    rintro ⟨ok, hok⟩
    simp [hok, Stage.isSent] at hsent
  refine ⟨hflight, ?_⟩
  rcases h.flight id hflight with hfound | hfound
  · exact Option.some.inj (hcall.symm.trans hfound)
  · obtain rfl := Option.some.inj (hcall.symm.trans hfound)
    cases hsent

/-- **What hangs goes on hanging**, and so does what awaits it. -/
theorem Tab.Sound.hangs_step (h : tab.Sound) (hhangs : tab.hangs flight)
    (hsteps : tab.Steps action next) : next.hangs flight ∧
      ∀ (id : Nat) call target, tab.calls[id]? = some call → call.stage = .waiting target →
        next.calls[id]? = some call := by
  obtain ⟨hflight, hself⟩ := hhangs
  cases hsteps with
  | load hunloaded => cases hflight.symm.trans (h.unloaded hunloaded).2.1
  | call | logout =>
      exact ⟨⟨hflight, Tab.send_calls.mpr (.inl hself)⟩,
        fun id call target hcall _ => Tab.send_calls.mpr (.inl hcall)⟩
  | fire =>
      have hthere : tab.cancelTimer.refreshInFlight = some flight := hflight
      rw [Tab.refresh_of_flight hthere]
      exact ⟨⟨hflight, hself⟩, fun _ _ _ hcall _ => hcall⟩
  | refused target call hcall hsent =>
      rw [Tab.refresh_of_flight hflight]
      have hkept : ∀ (id : Nat) other waits, tab.calls[id]? = some other →
          other.stage = .waiting waits →
          (tab.setStage target (.waiting flight)).calls[id]? = some other := by
        intro id other waits hother hwaiting
        refine Tab.setStage_calls.mpr (.inl ⟨?_, hother⟩)
        rintro rfl
        obtain rfl := Option.some.inj (hcall.symm.trans hother)
        cases hsent.symm.trans hwaiting
      exact ⟨⟨hflight, hkept flight _ flight hself rfl⟩, hkept⟩
  | settled target reply call result hcall hsent =>
      have hkind : call.kind ≠ .refresh := fun hkind => by
        obtain ⟨hthis, rfl⟩ := h.refreshing hcall hkind hsent
        obtain rfl := Option.some.inj (hflight.symm.trans hthis)
        cases hcall.symm.trans hself
      obtain ⟨hcalls, hsame⟩ := tab.settle_frame target hkind result
      have hkept : ∀ (id : Nat) other waits, tab.calls[id]? = some other →
          other.stage = .waiting waits →
          (tab.settle target call.kind result).calls[id]? = some other := by
        intro id other waits hother hwaiting
        rw [hcalls]
        refine Tab.setStage_calls.mpr (.inl ⟨?_, hother⟩)
        rintro rfl
        obtain rfl := Option.some.inj (hcall.symm.trans hother)
        simp [hwaiting, Stage.isSent] at hsent
      exact ⟨⟨hsame.trans hflight, hkept flight _ flight hself rfl⟩, hkept⟩

/-- A Refresh that is answered a 401 hangs. -/
theorem Tab.Sound.refused_hangs (h : tab.Sound) (hcall : tab.calls[id]? = some call)
    (hkind : call.kind = .refresh) (hsteps : tab.Steps (.answer id .unauthenticated) next) :
    next.hangs id := by
  have hloaded := h.loaded hcall (by simp [hkind])
  cases hsteps with
  | call _ _ _ _ hanswer => exact absurd rfl (hanswer id .unauthenticated)
  | refused _ other hother hsent =>
      obtain rfl := Option.some.inj (hcall.symm.trans hother)
      obtain ⟨hflight, rfl⟩ := h.refreshing hcall hkind (by simp [hsent, Stage.isSent])
      rw [Tab.refresh_of_flight hflight]
      exact ⟨hflight, Tab.setStage_calls.mpr (.inr ⟨rfl, _, hcall, rfl⟩)⟩
  | settled _ _ other result hother hsent hreply =>
      obtain rfl := Option.some.inj (hcall.symm.trans hother)
      obtain ⟨_, rfl⟩ := h.refreshing hcall hkind hsent
      cases hloaded.symm.trans (hreply rfl rfl)

/-- Nothing else makes a Refresh hang. -/
theorem Tab.hangs_before (hsteps : tab.Steps action next)
    (haccepts : tab.accepts action = true) (hhangs : next.hangs flight) : tab.hangs flight := by
  have hsend : ∀ (sender : Tab) kind, (sender.send kind).hangs flight → sender.hangs flight := by
    rintro sender kind ⟨hflight, hself⟩
    rcases Tab.send_calls.mp hself with hself | ⟨_, hnew⟩
    · exact ⟨hflight, hself⟩
    · cases hnew
  cases hsteps with
  | load => exact Tab.refresh_hangs hhangs
  | call => exact hsend tab _ hhangs
  | logout => exact hsend _ _ hhangs
  | fire =>
      have hbefore : tab.cancelTimer.hangs flight := Tab.refresh_hangs hhangs
      exact hbefore
  | refused target call hcall =>
      obtain ⟨hflight, hself⟩ := hhangs
      rcases Tab.setStage_calls.mp hself with ⟨_, hself⟩ | ⟨rfl, before, hbefore, hcalled⟩
      · exact Tab.refresh_hangs ⟨hflight, hself⟩
      · obtain rfl := Option.some.inj ((Tab.refresh_calls hcall).symm.trans hbefore)
        have hkind : call.kind = .refresh := (congrArg Call.kind hcalled).symm
        simp [Tab.accepts, hcall, hkind] at haccepts
  | settled target reply call result hcall hsent =>
      obtain ⟨hflight, hself⟩ := hhangs
      have hkind : call.kind ≠ .refresh := fun hkind => by
        rw [hkind] at hflight
        cases result with
        | none => cases hflight
        | some expiresIn => cases hflight
      obtain ⟨hcalls, hsame⟩ := tab.settle_frame target hkind result
      rw [hcalls] at hself
      rcases Tab.setStage_calls.mp hself with ⟨_, hself⟩ | ⟨_, before, _, hcalled⟩
      · exact ⟨hsame.symm.trans hflight, hself⟩
      · cases congrArg Call.stage hcalled

/-! ### Runs -/

/-- The Refresh has not settled. -/
def Tab.isRefreshing (tab : Tab) (id : Nat) : Bool :=
  (tab.calls[id]?).any fun call => decide (call.kind = .refresh) && !call.stage.isSettled

/-- Nothing is on its way. -/
def Tab.isQuiet (tab : Tab) : Bool := tab.calls.all fun call => !call.stage.isSent

theorem Tab.Sound.isRefreshing (h : tab.Sound) (hopen : tab.isRefreshing id = true) :
    tab.refreshInFlight = some id := by
  simp only [Tab.isRefreshing, Option.any_eq_true, Bool.and_eq_true, decide_eq_true_eq,
    Bool.not_eq_true'] at hopen
  obtain ⟨call, hcall, hkind, hopen⟩ := hopen
  refine (h.single id call hcall hkind).resolve_left ?_
  rintro ⟨ok, hok⟩
  simp [hok, Stage.isSettled] at hopen

theorem Tab.Sound.refreshes (h : tab.Sound) (hflight : tab.refreshInFlight = some flight) :
    tab.isRefreshing flight = true := by
  rcases h.flight flight hflight with hcall | hcall <;>
    simp [Tab.isRefreshing, hcall, Stage.isSettled]

/-- A step that is not allowed answers a Refresh with a 401. -/
theorem Tab.not_accepts (h : ¬ tab.accepts action = true) : ∃ (id : Nat) (call : Call),
    action = .answer id .unauthenticated ∧ tab.calls[id]? = some call ∧ call.kind = .refresh := by
  cases action with
  | answer id reply =>
      cases reply with
      | unauthenticated =>
          cases hcall : tab.calls[id]? with
          | none => simp [Tab.accepts, hcall] at h
          | some call => exact ⟨id, call, rfl, hcall, by simpa [Tab.accepts, hcall] using h⟩
      | ok | failed => exact absurd rfl h
  | load | call | login | register | logout | fire => exact absurd rfl h

/-- Once a Refresh hangs it does for the rest of the run, with the calls that await it. -/
theorem Tab.Sound.hangs_run (h : tab.Sound) (hhangs : tab.hangs flight) {rest : List Action}
    {later : Tab} (hrun : run Tab.step tab rest = some later) : later.hangs flight ∧
      ∀ (id : Nat) call target, tab.calls[id]? = some call → call.stage = .waiting target →
        later.calls[id]? = some call := by
  have hreach := reach_of_run_all hrun
  have hkept := hreach.invariant (fun later => later.Sound ∧ later.hangs flight ∧
    ∀ (id : Nat) call target, tab.calls[id]? = some call → call.stage = .waiting target →
      later.calls[id]? = some call) ⟨h, hhangs, fun _ _ _ hcall _ => hcall⟩ ?_
  · exact hkept.2
  · rintro before action after ⟨hsound, hbefore, hcalls⟩ _ hstep
    have hsteps := Tab.steps_of_step hstep
    obtain ⟨hafter, hstay⟩ := hsound.hangs_step hbefore hsteps
    exact ⟨hsound.step hsteps, hafter, fun id call target hcall hwaiting =>
      hstay id call target (hcalls id call target hcall hwaiting) hwaiting⟩

/-- No Refresh hangs in a run just if none is answered a 401. -/
theorem hangs_iff {actions : List Action} (hrun : run Tab.step Tab.start actions = some tab) :
    (∀ flight, ¬ tab.hangs flight) ↔
      RunAllowed Tab.step (fun tab action => tab.accepts action = true) Tab.start actions := by
  have hexact : (∀ done middle, done <+: actions → run Tab.step Tab.start done = some middle →
      ∀ flight, ¬ middle.hangs flight) ↔
      RunAllowed Tab.step (fun tab action => tab.accepts action = true) Tab.start actions := by
    refine runAllowed_iff ?_ ?_ hrun
    · rintro flight ⟨hflight, _⟩
      cases hflight
    · intro done before action after hdone hfree hstep
      have hsound := reach_sound (reach_of_run_all hdone)
      have hsteps := Tab.steps_of_step hstep
      constructor
      · intro hlater
        by_contra hrefused
        obtain ⟨id, call, rfl, hcall, hkind⟩ := Tab.not_accepts hrefused
        exact hlater id (hsound.refused_hangs hcall hkind hsteps)
      · exact fun haccepts flight hhangs => hfree flight (Tab.hangs_before hsteps haccepts hhangs)
  rw [← hexact]
  constructor
  · rintro hfree done middle ⟨rest, rfl⟩ hdone flight hhangs
    rw [run_append, hdone, Option.bind_some] at hrun
    have hsound := reach_sound (reach_of_run_all hdone)
    exact hfree flight (hsound.hangs_run hhangs hrun).1
  · exact fun hall => hall actions tab List.prefix_rfl hrun

/-- **One Refresh at a time.** In every run of a tab at most one Refresh has not settled, and a tab
that is signed in has the next one scheduled or in flight. As long as no Refresh is answered a 401,
every call that awaits one awaits one whose request is on its way, so that all calls have settled when
nothing is on its way; from the first such answer on there is a Refresh that never settles, and no
call that awaits one ever does. -/
theorem one_refresh_at_a_time {actions : List Action}
    (hrun : run Tab.step Tab.start actions = some tab) :
    (∀ id other, tab.isRefreshing id = true → tab.isRefreshing other = true → id = other) ∧
    (tab.signedIn = true → tab.refreshTimer.isSome = true ∨ ∃ id, tab.isRefreshing id = true) ∧
    (tab.settles ↔
      RunAllowed Tab.step (fun tab action => tab.accepts action = true) Tab.start actions) ∧
    (tab.settles → tab.isQuiet = true → ∀ call ∈ tab.calls, call.stage.isSettled = true) ∧
    (¬ tab.settles → ∀ rest later, run Tab.step tab rest = some later →
      (∃ id, later.isRefreshing id = true) ∧ ∀ (id : Nat) call flight, tab.calls[id]? = some call →
        call.stage = .waiting flight → later.calls[id]? = some call) := by
  have hsound := reach_sound (reach_of_run_all hrun)
  refine ⟨fun id other hid hother => ?_, fun hsigned => ?_, ?_, fun hsettles hquiet call hmem => ?_,
    fun hstuck rest later hrest => ?_⟩
  · exact Option.some.inj ((hsound.isRefreshing hid).symm.trans (hsound.isRefreshing hother))
  · refine (hsound.kept hsigned).imp (fun htimer => htimer) fun hflight => ?_
    obtain ⟨flight, hflight⟩ := Option.isSome_iff_exists.mp hflight
    exact ⟨flight, hsound.refreshes hflight⟩
  · exact hsound.settles_iff.trans (hangs_iff hrun)
  · obtain ⟨id, hcall⟩ := List.mem_iff_getElem?.mp hmem
    have hunsent : ∀ other ∈ tab.calls, other.stage.isSent = false := by
      simpa [Tab.isQuiet] using hquiet
    cases hstage : call.stage with
    | settled ok => rfl
    | sent | retried => simpa [hstage, Stage.isSent] using hunsent call hmem
    | waiting flight =>
        have hsent := hsettles id call flight hcall hstage
        simpa [Stage.isSent] using hunsent _ (List.mem_of_getElem? hsent)
  · obtain ⟨flight, hhangs⟩ : ∃ flight, tab.hangs flight := by
      by_contra hnone
      exact hstuck (hsound.settles_iff.mpr fun flight hhangs => hnone ⟨flight, hhangs⟩)
    obtain ⟨hlater, hcalls⟩ := hsound.hangs_run hhangs hrest
    refine ⟨⟨flight, ?_⟩, hcalls⟩
    simp [Tab.isRefreshing, hlater.2, Stage.isSettled]

end

/-! ### A visitor without a cookie -/

/-- The Refresh of the page is answered a 401, and so is a login with a wrong password. -/
def visit : List Action :=
  [.load, .answer 0 .unauthenticated, .login, .answer 1 .unauthenticated]

theorem one_refresh_at_a_time_visit : ∃ tab, run Tab.step Tab.start visit = some tab ∧
    ∀ rest later, run Tab.step tab rest = some later →
      later.calls[1]? = some ⟨.login, .waiting 0⟩ := by
  have hseen : (run Tab.step Tab.start visit).map (fun tab => tab.calls[1]?) =
      some (some ⟨.login, .waiting 0⟩) := by decide
  have hrefused : ¬ RunAllowed Tab.step (fun tab action => tab.accepts action = true) Tab.start
      visit := by
    decide
  obtain ⟨tab, hrun, hcall⟩ := Option.map_eq_some_iff.mp hseen
  obtain ⟨_, _, hexact, _, hstuck⟩ := one_refresh_at_a_time hrun
  exact ⟨tab, hrun, fun rest later hrest =>
    (hstuck (fun hsettles => hrefused (hexact.mp hsettles)) rest later hrest).2 1 _ 0 hcall rfl⟩

/-- The right password signs the tab in, and the timer finds the promise of the first Refresh. -/
example : (run Tab.step Tab.start (visit ++ [.login, .answer 2 (.ok 3600), .fire])).map (fun tab =>
    (tab.signedIn, tab.refreshTimer, tab.isRefreshing 0, tab.isQuiet)) =
    some (true, none, true, true) := by
  decide

/-- A Refresh that is under way when the user logs out signs the tab in again. -/
example : (run Tab.step Tab.start [.load, .logout, .answer 1 (.ok 0), .answer 0 (.ok 3600)]).map
    (fun tab => (tab.signedIn, tab.events)) = some (true, [.login]) := by
  decide

end CodexServer.WebSession
