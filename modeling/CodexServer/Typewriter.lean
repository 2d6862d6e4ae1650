import CodexServer.Library.Transition

/-!
# The typewriter

`createTypewriter` shows a text character by character. Its loop rests in a delay after each, and
between two delays anything may be called.
-/

namespace CodexServer.Typewriter

/-- The code units of a string. -/
abbrev Text := List UInt16

structure State where
  buffer : Text := []
  displayed : Text := []
  typing : Bool := false
  /-- The promise that `resolveDone` resolves. -/
  resolveDone : Option Nat := none
  generation : Nat := 0
  /-- The generation of each loop that rests in its delay. -/
  loops : List Nat := []
  /-- The promises made by `drained`, and those of them that are not resolved. -/
  promises : Nat := 0
  pending : List Nat := []
deriving DecidableEq

namespace State

variable (state : State)

/-- `resolveDone?.(); resolveDone = null;` -/
def resolve : State :=
  match state.resolveDone with
  | none => state
  | some promise =>
      { state with resolveDone := none, pending := state.pending.erase promise }

/-- The loop from its test on: to the next delay, or to its end. -/
def turn (loopGeneration : Nat) : State :=
  if loopGeneration = state.generation then
    match state.buffer with
    | c :: buffer =>
        { state with
          displayed := state.displayed ++ [c]
          buffer := buffer
          loops := state.loops ++ [loopGeneration] }
    | [] => { state with typing := false }.resolve
  else state

def loop (loopGeneration : Nat) : State :=
  if state.typing then state else { state with typing := true }.turn loopGeneration

def push (delta : Text) : State :=
  if delta.isEmpty then state
  else { state with buffer := state.buffer ++ delta }.loop state.generation

def reset : State :=
  { state with
    generation := state.generation + 1
    buffer := []
    displayed := []
    typing := false }.resolve

def flush : State :=
  if state.buffer.isEmpty then state
  else { state with displayed := state.displayed ++ state.buffer, buffer := [] }.resolve

/-- A promise that is resolved when it is made is not counted. -/
def drained : State :=
  if state.buffer.isEmpty && !state.typing then state
  else
    { state with
      resolveDone := some state.promises
      promises := state.promises + 1
      pending := state.promises :: state.pending }

/-- The delay of a loop is over. -/
def wake (index : Nat) : Option State :=
  state.loops[index]?.map fun loopGeneration =>
    { state with loops := state.loops.eraseIdx index }.turn loopGeneration

end State

inductive Action
  | push (delta : Text)
  | flush
  | reset
  | drained
  | wake (index : Nat)
deriving DecidableEq

def step (state : State) : Action → Option State
  | .push delta => some (state.push delta)
  | .flush => some state.flush
  | .reset => some state.reset
  | .drained => some state.drained
  | .wake index => state.wake index

end CodexServer.Typewriter
