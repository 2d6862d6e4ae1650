import CodexServer.Library.Program

/-!
# The runs of a program

A run is what a program did and yielded, with the answers it got, and the value it ended with. The
weakest precondition of a program is about its runs: with a monitor that records them, what it
promises holds after each of them.
-/

variable {Op : Type} {Val : Op → Type} {Fault Error Out Inner α β Local History : Type}

namespace Program

/-- One step of a run. -/
inductive Move (Op : Type) (Val : Op → Type) (Fault Out : Type)
  | did (op : Op) (answer : Except Fault (Val op))
  | yielded (out : Out)

/-- The program can make these moves and end with that value. -/
inductive Runs : Program Op Val Fault Out α → List (Move Op Val Fault Out) → α → Prop
  | ret (value : α) : Runs (.ret value) [] value
  | call {op : Op} {next : Except Fault (Val op) → Program Op Val Fault Out α}
      {moves : List (Move Op Val Fault Out)} {value : α} (answer : Except Fault (Val op))
      (hrest : Runs (next answer) moves value) : Runs (.call op next) (.did op answer :: moves) value
  | emit {out : Out} {rest : Program Op Val Fault Out α}
      {moves : List (Move Op Val Fault Out)} {value : α} (hrest : Runs rest moves value) :
      Runs (.emit out rest) (.yielded out :: moves) value

variable {program : Program Op Val Fault Out α} {moves : List (Move Op Val Fault Out)} {value : α}

theorem Runs.bind {continuation : α → Program Op Val Fault Out β} {last : β}
    {later : List (Move Op Val Fault Out)} (hfirst : Runs program moves value)
    (hlater : Runs (continuation value) later last) :
    Runs (program.bind continuation) (moves ++ later) last := by
  induction hfirst with
  | ret value => exact hlater
  | call answer _ ih => exact .call answer (ih hlater)
  | emit _ ih => exact .emit (ih hlater)

/-- A run of a sequence is a run of its first part and one of the rest. -/
theorem runs_bind {continuation : α → Program Op Val Fault Out β} {last : β} :
    Runs (program.bind continuation) moves last ↔
      ∃ before value after, Runs program before value ∧ Runs (continuation value) after last ∧
        moves = before ++ after := by
  refine ⟨fun hrun => ?_, ?_⟩
  · induction program generalizing moves with
    | ret value => exact ⟨[], value, moves, .ret value, hrun, rfl⟩
    | call op next ih =>
        cases hrun with
        | call answer hrest =>
            obtain ⟨before, value, after, hfirst, hlater, rfl⟩ := ih answer hrest
            exact ⟨_, value, after, .call answer hfirst, hlater, rfl⟩
    | emit out rest ih =>
        cases hrun with
        | emit hrest =>
            obtain ⟨before, value, after, hfirst, hlater, rfl⟩ := ih hrest
            exact ⟨_, value, after, .emit hfirst, hlater, rfl⟩
  · rintro ⟨before, value, after, hfirst, hlater, rfl⟩
    exact hfirst.bind hlater

/-- The run in which each operation is answered as `answer` says. -/
def exec (answer : (op : Op) → Except Fault (Val op)) :
    Program Op Val Fault Out α → List (Move Op Val Fault Out) × α
  | ret value => ([], value)
  | call op next =>
      let rest := (next (answer op)).exec answer
      (.did op (answer op) :: rest.1, rest.2)
  | emit out rest =>
      let rest := rest.exec answer
      (.yielded out :: rest.1, rest.2)

theorem runs_exec (answer : (op : Op) → Except Fault (Val op))
    (program : Program Op Val Fault Out α) :
    Runs program (program.exec answer).1 (program.exec answer).2 := by
  induction program with
  | ret value => exact .ret value
  | call op next ih => exact .call (answer op) (ih (answer op))
  | emit out rest ih => exact .emit ih

/-! ### Recording -/

/-- The monitor that records the moves and forbids none. -/
def recorder : Monitor Op Val Fault (List (Move Op Val Fault Out)) where
  allowed _ _ := True
  next history op answer := history ++ [.did op answer]

/-- A yielded value is recorded, and the consumer asks for the next. -/
def record (out : Out) (rest : List (Move Op Val Fault Out) → Prop)
    (history : List (Move Op Val Fault Out)) : Prop :=
  rest (history ++ [.yielded out])

theorem monotone_record : Monotone (@record Op Val Fault Out) :=
  fun _ _ _ _ hrest h => hrest _ h

/-- **Adequacy.** What is promised about a recorded program holds after each of its runs. -/
theorem Runs.promised (hrun : Runs program moves value)
    {post : α → List (Move Op Val Fault Out) → Prop} {history : List (Move Op Val Fault Out)}
    (h : program.wp recorder record post history) : post value (history ++ moves) := by
  induction hrun generalizing history with
  | ret value =>
      rw [List.append_nil]
      exact h
  | @call op next moves value answer _ ih =>
      have hrest := ih (h.2 answer)
      have hrecorded : (@recorder Op Val Fault Out).next history op answer =
          history ++ [.did op answer] := rfl
      rwa [hrecorded, List.append_assoc, List.singleton_append] at hrest
  | @emit out rest moves value _ ih =>
      have hrecorded : rest.wp recorder record post (history ++ [.yielded out]) := h
      have hrest := ih hrecorded
      rwa [List.append_assoc, List.singleton_append] at hrest

/-- What holds after each run is promised about the recorded program. -/
theorem wp_of_runs {post : α → List (Move Op Val Fault Out) → Prop}
    {history : List (Move Op Val Fault Out)}
    (h : ∀ moves value, Runs program moves value → post value (history ++ moves)) :
    program.wp recorder record post history := by
  induction program generalizing history with
  | ret value =>
      have hnone := h [] value (.ret value)
      rwa [List.append_nil] at hnone
  | call op next ih =>
      refine ⟨trivial, fun answer => ih answer fun moves value hrun => ?_⟩
      have hcall := h _ value (.call answer hrun)
      rwa [List.append_cons] at hcall
  | emit out rest ih =>
      have hrest : rest.wp recorder record post (history ++ [.yielded out]) := by
        refine ih fun moves value hrun => ?_
        have hemit := h _ value (.emit hrun)
        rwa [List.append_cons] at hemit
      exact hrest

/-- The values that a run yields. -/
def outputs (moves : List (Move Op Val Fault Out)) : List Out :=
  moves.filterMap fun
    | .yielded out => some out
    | .did .. => none

/-! ### The operations of a program -/

/-- The monitor that forbids all but some operations. -/
def guard (Allowed : Op → Prop) : Monitor Op Val Fault Unit where
  allowed _ op := Allowed op
  next _ _ _ := ()

/-- A consumer that asks for the next value. -/
def passOn {Out : Type} (_ : Out) (rest : Unit → Prop) (history : Unit) : Prop := rest history

/-- The program awaits only such operations. -/
def Only (Allowed : Op → Prop) (program : Program Op Val Fault Out α) : Prop :=
  program.wp (guard Allowed) passOn (fun _ _ => True) ()

/-- What such operations and the consumer preserve, the program preserves. -/
theorem Only.preserves {Allowed : Op → Prop} (honly : program.Only Allowed)
    {monitor : Monitor Op Val Fault History} {yields : Out → (History → Prop) → History → Prop}
    (Inv : History → Prop)
    (hops : ∀ op, Allowed op → ∀ history, Inv history → monitor.allowed history op ∧
      ∀ answer, Inv (monitor.next history op answer))
    (hyields : ∀ out rest history, (∀ later, Inv later → rest later) → Inv history →
      yields out rest history)
    {post : α → History → Prop} (hpost : ∀ value history, Inv history → post value history)
    {history : History} (hinv : Inv history) : program.wp monitor yields post history := by
  induction program generalizing history with
  | ret value => exact hpost value history hinv
  | call op next ih =>
      obtain ⟨hallowed, hkept⟩ := hops op honly.1 history hinv
      exact ⟨hallowed, fun answer => ih answer (honly.2 answer) (hkept answer)⟩
  | emit out rest ih => exact hyields out _ history (fun _ => ih honly) hinv

/-- The operations that a run has done. -/
theorem Only.runs {Allowed : Op → Prop} (honly : program.Only Allowed)
    (hrun : Runs program moves value) {op : Op} {answer : Except Fault (Val op)}
    (hmem : .did op answer ∈ moves) : Allowed op := by
  induction hrun with
  | ret value => cases hmem
  | call given _ ih =>
      rcases List.mem_cons.mp hmem with heq | hrest
      · cases heq
        exact honly.1
      · exact ih (honly.2 given) hrest
  | emit _ ih =>
      rcases List.mem_cons.mp hmem with heq | hrest
      · cases heq
      · exact ih honly hrest

theorem Only.mono {Allowed Weaker : Op → Prop} (honly : program.Only Allowed)
    (hweaker : ∀ op, Allowed op → Weaker op) : program.Only Weaker := by
  induction program with
  | ret value => exact trivial
  | call op next ih => exact ⟨hweaker op honly.1, fun answer => ih answer (honly.2 answer)⟩
  | emit out rest ih => exact ih honly

theorem monotone_passOn : Monotone (@passOn Out) := fun _ _ _ _ hrest h => hrest _ h

theorem Only.bind {Allowed : Op → Prop} {continuation : α → Program Op Val Fault Out β}
    (hfirst : program.Only Allowed) (hlater : ∀ value, (continuation value).Only Allowed) :
    (program.bind continuation).Only Allowed := by
  unfold Only
  rw [wp_bind]
  exact wp_mono monotone_passOn (fun value _ _ => hlater value) hfirst

end Program

namespace Async

/-- A run of a sequence, when its first part raises and when it does not. -/
theorem runs_attempt_bind {code : Async Op Val Fault Error Out Local α}
    {continuation : Except Error α → Async Op Val Fault Error Out Local β} {locals : Local}
    {moves : List (Program.Move Op Val Fault Out)} {result : Except Error β × Local} :
    Program.Runs ((attempt code >>= continuation) locals) moves result ↔
      ∃ before outcome middle after, Program.Runs (code locals) before (outcome, middle) ∧
        Program.Runs (continuation outcome middle) after result ∧ moves = before ++ after := by
  change Program.Runs (((code locals).bind _).bind (andThen continuation)) moves result ↔ _
  rw [Program.runs_bind]
  constructor
  · rintro ⟨before, value, after, hfirst, hlater, rfl⟩
    rw [Program.runs_bind] at hfirst
    obtain ⟨first, ⟨outcome, middle⟩, none, hcode, hret, rfl⟩ := hfirst
    cases hret
    exact ⟨first, outcome, middle, after, hcode, hlater, by simp⟩
  · rintro ⟨before, outcome, middle, after, hcode, hlater, rfl⟩
    refine ⟨before, (.ok outcome, middle), after, ?_, hlater, rfl⟩
    exact (Program.runs_bind).mpr ⟨before, (outcome, middle), [], hcode, .ret _, by simp⟩

/-- A run of `tryFinally` has a run of the cleanup at its end, whatever came before. -/
theorem runs_tryFinally {code : Async Op Val Fault Error Out Local α}
    {cleanup : Async Op Val Fault Error Out Local Unit} {locals : Local}
    {moves : List (Program.Move Op Val Fault Out)} {result : Except Error α × Local} :
    Program.Runs (tryFinally code cleanup locals) moves result ↔
      ∃ before outcome middle after left final, Program.Runs (code locals) before (outcome, middle) ∧
        Program.Runs (cleanup middle) after (left, final) ∧ moves = before ++ after ∧
        result = (left.bind fun _ => outcome, final) := by
  unfold tryFinally
  rw [runs_attempt_bind]
  constructor
  · rintro ⟨before, outcome, middle, after, hcode, hrest, rfl⟩
    change Program.Runs ((cleanup middle).bind (andThen _)) after result at hrest
    rw [Program.runs_bind] at hrest
    obtain ⟨cleaning, ⟨left, final⟩, last, hcleanup, hlast, rfl⟩ := hrest
    refine ⟨before, outcome, middle, cleaning, left, final, hcode, hcleanup, ?_, ?_⟩
    · cases left <;> cases outcome <;> cases hlast <;> simp
    · cases left <;> cases outcome <;> cases hlast <;> rfl
  · rintro ⟨before, outcome, middle, after, left, final, hcode, hcleanup, rfl, rfl⟩
    refine ⟨before, outcome, middle, after, hcode, ?_, rfl⟩
    change Program.Runs ((cleanup middle).bind (andThen _)) after _
    refine (Program.runs_bind).mpr ⟨after, (left, final), [], hcleanup, ?_, by simp⟩
    cases left <;> cases outcome <;> exact .ret _

/-- A run that begins with an await. -/
theorem runs_await_bind {raised : Fault → Error} {op : Op}
    {continuation : Val op → Async Op Val Fault Error Out Local β} {locals : Local}
    {moves : List (Program.Move Op Val Fault Out)} {result : Except Error β × Local} :
    Program.Runs ((await raised op >>= continuation) locals) moves result ↔
      (∃ value rest, Program.Runs (continuation value locals) rest result ∧
        moves = .did op (.ok value) :: rest) ∨
      ∃ fault, moves = [.did op (.error fault)] ∧ result = (.error (raised fault), locals) := by
  constructor
  · intro hrun
    cases hrun with
    | call answer hrest =>
        cases answer with
        | ok value => exact .inl ⟨value, _, hrest, rfl⟩
        | error fault =>
            cases hrest
            exact .inr ⟨fault, rfl, rfl⟩
  · rintro (⟨value, rest, hrest, rfl⟩ | ⟨fault, rfl, rfl⟩)
    · exact .call (.ok value) hrest
    · exact .call (.error fault) (.ret _)

/-! ### The operations of some code -/

/-- The code awaits only such operations. -/
def Awaits (Allowed : Op → Prop) (code : Async Op Val Fault Error Out Local α) : Prop :=
  ∀ locals, (code locals).Only Allowed

section

variable {Allowed : Op → Prop} {code : Async Op Val Fault Error Out Local α}
  {continuation : α → Async Op Val Fault Error Out Local β}

theorem Awaits.mono {Weaker : Op → Prop} (h : Awaits Allowed code)
    (hweaker : ∀ op, Allowed op → Weaker op) : Awaits Weaker code :=
  fun locals => (h locals).mono hweaker

theorem awaits_pure (value : α) :
    Awaits Allowed (pure value : Async Op Val Fault Error Out Local α) := fun _ => trivial

theorem awaits_throw (error : Error) :
    Awaits Allowed (throw error : Async Op Val Fault Error Out Local α) := fun _ => trivial

theorem awaits_getLocal :
    Awaits Allowed (getLocal : Async Op Val Fault Error Out Local Local) := fun _ => trivial

theorem awaits_modifyLocal (change : Local → Local) :
    Awaits Allowed (modifyLocal change : Async Op Val Fault Error Out Local Unit) := fun _ => trivial

theorem awaits_emit (out : Out) :
    Awaits Allowed (emit out : Async Op Val Fault Error Out Local Unit) := fun _ => trivial

theorem awaits_ofExcept (outcome : Except Error α) :
    Awaits Allowed (ofExcept outcome : Async Op Val Fault Error Out Local α) := by
  cases outcome with
  | ok value => exact awaits_pure value
  | error error => exact awaits_throw error

theorem awaits_await (raised : Fault → Error) {op : Op} (hop : Allowed op) :
    Awaits Allowed (await raised op : Async Op Val Fault Error Out Local (Val op)) := by
  refine fun locals => ⟨hop, fun answer => ?_⟩
  cases answer <;> exact trivial

theorem Awaits.bind (hfirst : Awaits Allowed code)
    (hlater : ∀ value, Awaits Allowed (continuation value)) :
    Awaits Allowed (code >>= continuation) := by
  intro locals
  refine (hfirst locals).bind fun result => ?_
  obtain ⟨outcome, middle⟩ := result
  cases outcome with
  | ok value => exact hlater value middle
  | error error => exact trivial

theorem Awaits.attempt (h : Awaits Allowed code) : Awaits Allowed (attempt code) :=
  fun locals => (h locals).bind fun _ => trivial

theorem Awaits.tryCatch (h : Awaits Allowed code)
    {handler : Error → Async Op Val Fault Error Out Local α}
    (hhandler : ∀ error, Awaits Allowed (handler error)) : Awaits Allowed (tryCatch code handler) := by
  refine h.attempt.bind fun outcome => ?_
  cases outcome with
  | ok value => exact awaits_pure value
  | error error => exact hhandler error

theorem Awaits.ite {condition : Prop} [Decidable condition]
    {other : Async Op Val Fault Error Out Local α} (h : Awaits Allowed code)
    (hother : Awaits Allowed other) : Awaits Allowed (if condition then code else other) := by
  split
  · exact h
  · exact hother

theorem Awaits.forEach {body : Inner → Async Op Val Fault Error Out Local (Option β)}
    (hbody : ∀ inner, Awaits Allowed (body inner))
    {client : Program Op Val Fault Inner (Except Error Unit)} (hclient : client.Only Allowed) :
    Awaits Allowed (forEach body client) := by
  intro locals
  induction client generalizing locals with
  | ret outcome => exact (awaits_ofExcept outcome).bind (fun _ => awaits_pure none) locals
  | call op next ih => exact ⟨hclient.1, fun answer => ih answer (hclient.2 answer) locals⟩
  | emit out rest ih =>
      refine (hbody out).bind (fun result => ?_) locals
      cases result with
      | none => exact ih hclient
      | some value => exact awaits_pure (some value)

theorem Awaits.generator {State : Type} {code : Async Op Val Fault Error Out State Unit}
    (h : Awaits Allowed code) (state : State) : (generator code state).Only Allowed :=
  (h state).bind fun _ => trivial

end

/-- A loop keeps what its body keeps, when the operations of the generator keep it too. -/
theorem Keeps.forEach {monitor : Monitor Op Val Fault History}
    {yields : Out → (History → Prop) → History → Prop} (hyields : Program.Monotone yields)
    {Inv : Local → History → Prop} {Allowed : Op → Prop}
    {body : Inner → Async Op Val Fault Error Out Local (Option β)}
    (hbody : ∀ inner, Keeps monitor yields Inv (body inner))
    {client : Program Op Val Fault Inner (Except Error Unit)} (hclient : client.Only Allowed)
    (hops : ∀ op, Allowed op → ∀ locals history, Inv locals history →
      monitor.allowed history op ∧ ∀ answer, Inv locals (monitor.next history op answer)) :
    Keeps monitor yields Inv (forEach body client) := by
  intro locals history h
  rw [wp_forEach]
  refine hclient.preserves (fun now => Inv now.1 now.2) ?_ ?_ ?_ h
  · exact fun op hop now hnow => hops op hop now.1 now.2 hnow
  · intro inner rest now hrest hnow
    refine (hbody inner).call hyields hnow ?_ fun _ _ _ herror => herror
    intro result locals history hinv
    cases result with
    | none => exact hrest (locals, history) hinv
    | some value => exact hinv
  · intro outcome now hnow
    cases outcome <;> exact hnow

/-! ### A loop whose body never leaves it -/

/-- Where the body of a loop goes on in each of its good runs, a good run of the loop has gone
through a run of the generator to its end. -/
theorem runs_forEach {body : Inner → Async Op Val Fault Error Out Local (Option β)}
    {good : Program.Move Op Val Fault Out → Bool} {advance : Local → Inner → Local}
    (hbody : ∀ inner locals moves result, Program.Runs (body inner locals) moves result →
      moves.all good = true → result = (.ok none, advance locals inner))
    {client : Program Op Val Fault Inner (Except Error Unit)} {locals : Local}
    {moves : List (Program.Move Op Val Fault Out)} {result : Except Error (Option β) × Local}
    (hrun : Program.Runs (forEach body client locals) moves result)
    (hgood : moves.all good = true) :
    ∃ clientMoves ending, Program.Runs client clientMoves ending ∧
      (∀ op answer, .did op answer ∈ clientMoves → .did op answer ∈ moves) ∧
      result = (ending.map fun _ => none,
        (Program.outputs clientMoves).foldl advance locals) := by
  induction client generalizing locals moves with
  | ret ending =>
      refine ⟨[], ending, .ret ending, nofun, ?_⟩
      cases ending <;> cases hrun <;> rfl
  | call op next ih =>
      cases hrun with
      | @call _ _ later _ answer hrest =>
          rw [List.all_cons, Bool.and_eq_true] at hgood
          obtain ⟨clientMoves, ending, hclient, hmem, rfl⟩ := ih answer hrest hgood.2
          refine ⟨_, ending, .call answer hclient, fun op' answer' h => ?_, rfl⟩
          rcases List.mem_cons.mp h with heq | hlater
          · cases heq
            exact List.mem_cons_self
          · exact List.mem_cons_of_mem _ (hmem op' answer' hlater)
  | emit out rest ih =>
      change Program.Runs ((body out locals).bind (andThen _)) moves result at hrun
      rw [Program.runs_bind] at hrun
      obtain ⟨before, middle, after, hfirst, hlater, rfl⟩ := hrun
      rw [List.all_append, Bool.and_eq_true] at hgood
      obtain rfl := hbody out locals before middle hfirst hgood.1
      obtain ⟨clientMoves, ending, hclient, hmem, rfl⟩ := ih hlater hgood.2
      exact ⟨_, ending, .emit hclient, fun op answer h =>
        List.mem_append_right before (hmem op answer (by simpa using h)), rfl⟩

end Async
