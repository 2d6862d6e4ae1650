import CodexServer.ExecutionRun
import CodexServer.RunTurn

/-!
# The deliveries of a job

A delivery of a turn to `execute_turn_inner` is over at one of the early exits, or goes through the
locked part and the `finally` clause. A request with the deliveries of its job is what a slot of the
rate limit has to be accounted for over.
-/

open Program (Runs)

namespace CodexServer

section

variable (cfg : ExecConfig) (turn : TurnRow)

/-- The locked part and its `except` clauses. -/
def executeLocked : ExecCode Unit :=
  Async.tryCatch (Locks.holdTurnLocks turn.chatId cfg.turnId (withOutcome cfg turn))
    (executionFailed cfg)

/-- A run from the row on. -/
structure LoadedRun where
  body : List ExecMove
  outcome : Except Exn Unit
  locals : ExecLocals
  leaving : List ExecMove
  left : Except Exn Unit
  final : ExecLocals
  locked : Runs (executeLocked cfg turn {}) body (outcome, locals)
  cleanup : Runs (executionFinally cfg locals) leaving (left, final)

/-- A run of `execute_turn_inner`, by the exit it takes. -/
inductive Delivery
  | rowUnread (fault : Fault)
  | rowMissing
  | rowTerminal (turn : TurnRow) (hterminal : turn.status.isTerminal = true)
  | userUnread (turn : TurnRow) (hactive : turn.status.isTerminal = false) (fault : Fault)
  | userMissing (turn : TurnRow) (hactive : turn.status.isTerminal = false)
  | executed (turn : TurnRow) (hactive : turn.status.isTerminal = false) (run : LoadedRun cfg turn)

end

namespace Delivery

variable {cfg : ExecConfig}

def loads (turn : TurnRow) : ExecMove := .did (.getTurn cfg.turnId) (.ok (some turn))

def moves : Delivery cfg → List ExecMove
  | rowUnread fault => [.did (.getTurn cfg.turnId) (.error fault)]
  | rowMissing => [.did (.getTurn cfg.turnId) (.ok none)]
  | rowTerminal turn _ => [@loads cfg turn]
  | userUnread turn _ fault => [@loads cfg turn, .did (.getUser turn.userId) (.error fault)]
  | userMissing turn _ => [@loads cfg turn, .did (.getUser turn.userId) (.ok false)]
  | executed turn _ run =>
      [@loads cfg turn, .did (.getUser turn.userId) (.ok true)] ++ (run.body ++ run.leaving)

/-- The row that the delivery has read. -/
def turn : Delivery cfg → Option TurnRow
  | rowUnread _ | rowMissing => none
  | rowTerminal turn _ | userUnread turn .. | userMissing turn _ | executed turn .. => some turn

/-- What the `finally` clause raises takes the place of the outcome. -/
def result : Delivery cfg → Except Exn Unit × ExecLocals
  | rowUnread fault | userUnread _ _ fault => (.error (.fault fault), {})
  | rowMissing | rowTerminal .. | userMissing .. => (.ok (), {})
  | executed _ _ run => (run.left.bind fun _ => run.outcome, run.final)

end Delivery

section

variable {cfg : ExecConfig} {turn : TurnRow} {moves : List ExecMove}
  {result : Except Exn Unit × ExecLocals}

theorem executeLoaded_runs : Runs (executeLoaded cfg turn {}) moves result ↔
    ∃ run : LoadedRun cfg turn, run.body ++ run.leaving = moves ∧
      (run.left.bind fun _ => run.outcome, run.final) = result := by
  refine Async.runs_tryFinally.trans ⟨?_, ?_⟩
  · rintro ⟨body, outcome, locals, leaving, left, final, hbody, hleaving, rfl, rfl⟩
    exact ⟨⟨body, outcome, locals, leaving, left, final, hbody, hleaving⟩, rfl, rfl⟩
  · rintro ⟨run, rfl, rfl⟩
    exact ⟨_, _, _, _, _, _, run.locked, run.cleanup, rfl, rfl⟩

/-- `execute_turn_inner` once it has the row of an active turn. -/
def loadUser (cfg : ExecConfig) (turn : TurnRow) : ExecCode Unit := do
  let user ← await (.getUser turn.userId)
  if user then executeLoaded cfg turn else pure ()

theorem loadUser_runs : Runs (loadUser cfg turn {}) moves result ↔
    (∃ run : LoadedRun cfg turn,
      moves = .did (.getUser turn.userId) (.ok true) :: (run.body ++ run.leaving) ∧
        result = (run.left.bind fun _ => run.outcome, run.final)) ∨
      (moves = [.did (.getUser turn.userId) (.ok false)] ∧ result = (.ok (), {})) ∨
        ∃ fault, moves = [.did (.getUser turn.userId) (.error fault)] ∧
          result = (.error (.fault fault), {}) := by
  refine Async.runs_await_bind.trans ?_
  constructor
  · rintro (⟨known, rest, hrest, rfl⟩ | hfault)
    · cases known with
      | true =>
          obtain ⟨run, rfl, rfl⟩ := executeLoaded_runs.mp hrest
          exact .inl ⟨run, rfl, rfl⟩
      | false =>
          cases hrest
          exact .inr (.inl ⟨rfl, rfl⟩)
    · exact .inr (.inr hfault)
  · rintro (⟨run, rfl, rfl⟩ | ⟨rfl, rfl⟩ | hfault)
    · exact .inl ⟨true, _, executeLoaded_runs.mpr ⟨run, rfl, rfl⟩, rfl⟩
    · exact .inl ⟨false, [], .ret _, rfl⟩
    · exact .inr hfault

/-- These are all the runs of `execute_turn_inner`. -/
theorem executeTurnInner_runs : Runs (executeTurnInner cfg {}) moves result ↔
    ∃ delivery : Delivery cfg, delivery.moves = moves ∧ delivery.result = result := by
  have hloaded : ∀ (turn : TurnRow) (rest : List ExecMove),
      Runs ((if turn.status.isTerminal = true then pure () else loadUser cfg turn) {}) rest result ↔
        if turn.status.isTerminal = true then rest = [] ∧ result = (.ok (), {})
        else Runs (loadUser cfg turn {}) rest result := by
    intro turn rest
    split
    · refine ⟨fun hrun => ?_, ?_⟩
      · cases hrun
        exact ⟨rfl, rfl⟩
      · rintro ⟨rfl, rfl⟩
        exact .ret _
    · rfl
  refine Async.runs_await_bind.trans ⟨?_, ?_⟩
  · rintro (⟨found, rest, hrest, rfl⟩ | ⟨fault, rfl, rfl⟩)
    · cases found with
      | none =>
          cases hrest
          exact ⟨.rowMissing, rfl, rfl⟩
      | some turn =>
          have hrest := (hloaded turn rest).mp hrest
          split at hrest
          · rename_i hterminal
            obtain ⟨rfl, rfl⟩ := hrest
            exact ⟨.rowTerminal turn hterminal, rfl, rfl⟩
          · rename_i hactive
            have hactive := Bool.eq_false_iff.mpr hactive
            rcases loadUser_runs.mp hrest with ⟨run, rfl, rfl⟩ | ⟨rfl, rfl⟩ | ⟨fault, rfl, rfl⟩
            · exact ⟨.executed turn hactive run, rfl, rfl⟩
            · exact ⟨.userMissing turn hactive, rfl, rfl⟩
            · exact ⟨.userUnread turn hactive fault, rfl, rfl⟩
    · exact ⟨.rowUnread fault, rfl, rfl⟩
  · rintro ⟨delivery, rfl, rfl⟩
    have hactive {turn : TurnRow} {rest : List ExecMove} {result : Except Exn Unit × ExecLocals}
        (hactive : turn.status.isTerminal = false) (hrun : Runs (loadUser cfg turn {}) rest result) :
        Runs ((if turn.status.isTerminal = true then pure () else loadUser cfg turn) {}) rest
          result := by
      rwa [if_neg (Bool.eq_false_iff.mp hactive)]
    cases delivery with
    | rowUnread fault => exact .inr ⟨fault, rfl, rfl⟩
    | rowMissing => exact .inl ⟨none, [], .ret _, rfl⟩
    | rowTerminal turn hterminal =>
        refine .inl ⟨some turn, [], (hloaded turn []).mpr ?_, rfl⟩
        rw [if_pos hterminal]
        exact ⟨rfl, rfl⟩
    | userUnread turn h fault =>
        exact .inl ⟨some turn, _, hactive h (loadUser_runs.mpr (.inr (.inr ⟨fault, rfl, rfl⟩))), rfl⟩
    | userMissing turn h =>
        exact .inl ⟨some turn, _, hactive h (loadUser_runs.mpr (.inr (.inl ⟨rfl, rfl⟩))), rfl⟩
    | executed turn h run =>
        exact .inl ⟨some turn, _, hactive h (loadUser_runs.mpr (.inl ⟨run, rfl, rfl⟩)), rfl⟩

end
end CodexServer
