import CodexServer.RateLimit

/-!
# The calls of a user under the hourly limit

The keys of a user, with every `reserve_turn` that was made and how it ended. The administrator may
change the limit on the active turns at any time; the hourly limit stays.
-/

namespace CodexServer.RateLimit

structure Call where
  reading : ℚ
  /-- Nothing for a turn that is admitted. -/
  refusal : Option RateLimited
deriving DecidableEq

/-- How `reserve_turn` ends for its caller. -/
def refusalOf : Except RateLimited Unit → Option RateLimited
  | .ok _ => none
  | .error refusal => some refusal

structure Window where
  state : State
  /-- In their order. -/
  calls : List Call

namespace Window

def init : Window := ⟨State.init, []⟩

variable (window : Window)

/-- The readings of the reservations that were admitted. -/
def admitted : List ℚ :=
  (window.calls.filter fun call => call.refusal.isNone).map Call.reading

/-- How many of the admitted reservations have a reading in the hour up to `instant`. -/
def admittedIn (instant : ℚ) : Nat :=
  window.admitted.countP fun reading => instant - hourlyWindow < reading ∧ reading ≤ instant

/-- What the sorted set holds of the hour up to `instant`. -/
def recordedIn (instant : ℚ) : Finset ℚ :=
  (window.state.keys.hourly.elim ∅ ScoreSet.members).filter fun score =>
    instant - hourlyWindow < score ∧ score ≤ instant

/-- The clock is read before the script runs, and no call reads it earlier than one before. -/
def mayRead (reading : ℚ) : Prop :=
  0 ≤ reading ∧ reading ≤ window.state.clock ∧ ∀ call ∈ window.calls, call.reading ≤ reading

instance (reading : ℚ) : Decidable (window.mayRead reading) :=
  inferInstanceAs (Decidable (_ ∧ _ ∧ _))

end Window

section

variable (kind : UserKind) (hourly : Nat)

/-- The settings that a call finds, and what it does. -/
abbrev WindowAction : Type := RuntimeSettings × Action

def windowStep (window : Window) : WindowAction → Option Window
  | (settings, action) =>
      if (settings.turnLimits kind).hourly = hourly then
        match action with
        | .reserve reading =>
            if window.mayRead reading then
              (step kind settings window.state (.reserve reading)).map fun state =>
                ⟨state, window.calls ++ [⟨reading, refusalOf
                  (reserveTurn kind settings reading window.state.clock window.state.keys).1⟩]⟩
            else none
        | action =>
            (step kind settings window.state action).map fun state => { window with state := state }
      else none

end
end CodexServer.RateLimit
