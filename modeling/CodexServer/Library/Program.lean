import Mathlib.Logic.Basic

/-!
# Programs that await and yield

A program is the tree of what it does next: it ends with a value, awaits an operation whose answer
may be a fault, or yields a value to whoever iterates over it. `Async` adds local variables and
exceptions, with which code written with `try`, `finally` and `async for` is translated line by line.

A monitor watches the operations of a program. It has a history of its own, which each answer moves
on, and it may forbid an operation. `wp` says that a program never does what the monitor forbids and
ends in a given postcondition, whatever the answers are; the rules below compute it from the parts
of a program.
-/

/-- `Val op` is what the operation `op` answers, `Fault` what may be raised instead. -/
inductive Program (Op : Type) (Val : Op → Type) (Fault Out α : Type) : Type
  | ret (value : α)
  | call (op : Op) (next : Except Fault (Val op) → Program Op Val Fault Out α)
  | emit (out : Out) (rest : Program Op Val Fault Out α)

variable {Op : Type} {Val : Op → Type} {Fault Error Out Inner α β Local History : Type}

/-- What is watched: the operations allowed after a history, and the history an answer leads to. -/
structure Monitor (Op : Type) (Val : Op → Type) (Fault History : Type) where
  allowed : History → Op → Prop
  next : History → (op : Op) → Except Fault (Val op) → History

namespace Program

def bind : Program Op Val Fault Out α → (α → Program Op Val Fault Out β) →
    Program Op Val Fault Out β
  | ret value, continuation => continuation value
  | call op next, continuation => call op fun answer => (next answer).bind continuation
  | emit out rest, continuation => emit out (rest.bind continuation)

variable (monitor : Monitor Op Val Fault History)
  (yields : Out → (History → Prop) → History → Prop)

/-- The program keeps to the monitor and ends in `post`. `yields` says what happens to the history
while a yielded value is with the consumer. -/
def wp : Program Op Val Fault Out α → (α → History → Prop) → History → Prop
  | ret value, post, history => post value history
  | call op next, post, history => monitor.allowed history op ∧
      ∀ answer, (next answer).wp post (monitor.next history op answer)
  | emit out rest, post, history => yields out (fun later => rest.wp post later) history

variable {monitor yields}

theorem wp_bind (program : Program Op Val Fault Out α)
    (continuation : α → Program Op Val Fault Out β) (post : β → History → Prop) :
    (program.bind continuation).wp monitor yields post =
      program.wp monitor yields fun value => (continuation value).wp monitor yields post := by
  induction program with
  | ret value => rfl
  | call op next ih =>
      funext history
      simp only [bind, wp, ih]
  | emit out rest ih =>
      funext history
      simp only [bind, wp, ih]

/-- A consumer that is content with more when it is content with less. -/
def Monotone (yields : Out → (History → Prop) → History → Prop) : Prop :=
  ∀ out (rest rest' : History → Prop) history, (∀ later, rest later → rest' later) →
    yields out rest history → yields out rest' history

/-- A weaker postcondition is as good. -/
theorem wp_mono {post weaker : α → History → Prop} {program : Program Op Val Fault Out α}
    (hyields : Monotone yields)
    (hpost : ∀ value history, post value history → weaker value history) {history : History}
    (h : program.wp monitor yields post history) :
    program.wp monitor yields weaker history := by
  induction program generalizing history with
  | ret value => exact hpost value history h
  | call op next ih => exact ⟨h.1, fun answer => ih answer (h.2 answer)⟩
  | emit out rest ih => exact hyields _ _ _ _ (fun _ => ih) h

end Program

/-- Code with local variables and exceptions. -/
def Async (Op : Type) (Val : Op → Type) (Fault Error Out Local α : Type) : Type :=
  Local → Program Op Val Fault Out (Except Error α × Local)

namespace Async

/-- What follows a value; an exception skips it. -/
def andThen (continuation : α → Async Op Val Fault Error Out Local β) :
    Except Error α × Local → Program Op Val Fault Out (Except Error β × Local)
  | (.ok value, locals) => continuation value locals
  | (.error error, locals) => .ret (.error error, locals)

instance : Monad (Async Op Val Fault Error Out Local) where
  pure value := fun locals => .ret (.ok value, locals)
  bind code continuation := fun locals => (code locals).bind (andThen continuation)

def throw (error : Error) : Async Op Val Fault Error Out Local α :=
  fun locals => .ret (.error error, locals)

/-- The outcome of some code as a value. -/
def attempt (code : Async Op Val Fault Error Out Local α) :
    Async Op Val Fault Error Out Local (Except Error α) :=
  fun locals => (code locals).bind fun (outcome, locals) => .ret (.ok outcome, locals)

def ofExcept : Except Error α → Async Op Val Fault Error Out Local α
  | .ok value => pure value
  | .error error => throw error

/-- `try code except error: handler`. -/
def tryCatch (code : Async Op Val Fault Error Out Local α)
    (handler : Error → Async Op Val Fault Error Out Local α) :
    Async Op Val Fault Error Out Local α := do
  match ← attempt code with
  | .ok value => pure value
  | .error error => handler error

/-- `try code finally cleanup`: what `cleanup` raises takes the place of what `code` raised. -/
def tryFinally (code : Async Op Val Fault Error Out Local α)
    (cleanup : Async Op Val Fault Error Out Local Unit) :
    Async Op Val Fault Error Out Local α := do
  let outcome ← attempt code
  cleanup
  ofExcept outcome

def getLocal : Async Op Val Fault Error Out Local Local := fun locals => .ret (.ok locals, locals)

def modifyLocal (change : Local → Local) : Async Op Val Fault Error Out Local Unit :=
  fun locals => .ret (.ok (), change locals)

def emit (out : Out) : Async Op Val Fault Error Out Local Unit :=
  fun locals => .emit out (.ret (.ok (), locals))

/-- Await an operation; its fault is raised as `raised fault`. -/
def await (raised : Fault → Error) (op : Op) : Async Op Val Fault Error Out Local (Val op) :=
  fun locals => .call op fun
    | .ok value => .ret (.ok value, locals)
    | .error fault => .ret (.error (raised fault), locals)

/-- `async for out in generator: body`. The body may leave the loop with a value, which `break` and
`return` do; what it raises does not go through the generator. -/
def forEach (body : Inner → Async Op Val Fault Error Out Local (Option β)) :
    Program Op Val Fault Inner (Except Error Unit) →
    Async Op Val Fault Error Out Local (Option β)
  | .ret outcome => do
      ofExcept outcome
      pure none
  | .call op next => fun locals => .call op fun answer => forEach body (next answer) locals
  | .emit out rest => do
      match ← body out with
      | none => forEach body rest
      | some value => pure (some value)

/-- A generator's own variables start afresh. -/
def generator {State : Type} (code : Async Op Val Fault Error Out State Unit) (state : State) :
    Program Op Val Fault Out (Except Error Unit) :=
  (code state).bind fun (outcome, _) => .ret outcome

variable (monitor : Monitor Op Val Fault History)
  (yields : Out → (History → Prop) → History → Prop)

def wp (code : Async Op Val Fault Error Out Local α)
    (post : Except Error α → Local → History → Prop) (locals : Local) (history : History) : Prop :=
  (code locals).wp monitor yields (fun result history => post result.1 result.2 history) history

variable {monitor yields} {post : Except Error α → Local → History → Prop}
  {post' : Except Error β → Local → History → Prop} {locals : Local} {history : History}

/-- One postcondition for a value and one for an exception. -/
def either (onValue : α → Local → History → Prop) (onError : Error → Local → History → Prop) :
    Except Error α → Local → History → Prop
  | .ok value => onValue value
  | .error error => onError error

@[simp]
theorem either_ok (onValue : α → Local → History → Prop) (onError : Error → Local → History → Prop)
    (value : α) : either onValue onError (.ok value) = onValue value := rfl

@[simp]
theorem either_error (onValue : α → Local → History → Prop)
    (onError : Error → Local → History → Prop) (error : Error) :
    either onValue onError (.error error) = onError error := rfl

/-! ### The rules -/

@[simp]
theorem wp_pure (value : α) :
    wp monitor yields (pure value) post locals history ↔ post (.ok value) locals history := Iff.rfl

@[simp]
theorem wp_throw (error : Error) :
    wp monitor yields (throw error) post locals history ↔ post (.error error) locals history :=
  Iff.rfl

@[simp]
theorem wp_bind (code : Async Op Val Fault Error Out Local α)
    (continuation : α → Async Op Val Fault Error Out Local β) :
    wp monitor yields (code >>= continuation) post' locals history ↔
      wp monitor yields code (either (fun value => wp monitor yields (continuation value) post')
        fun error => post' (.error error)) locals history := by
  change Program.wp monitor yields ((code locals).bind (andThen continuation)) _ history ↔ _
  rw [Program.wp_bind]
  refine iff_of_eq (congrArg (fun post => Program.wp monitor yields (code locals) post history) ?_)
  funext ⟨outcome, locals⟩ history
  cases outcome <;> rfl

@[simp]
theorem wp_attempt (code : Async Op Val Fault Error Out Local α)
    {post : Except Error (Except Error α) → Local → History → Prop} :
    wp monitor yields (attempt code) post locals history ↔
      wp monitor yields code (fun outcome => post (.ok outcome)) locals history := by
  unfold wp attempt
  rw [Program.wp_bind]
  rfl

@[simp]
theorem wp_ofExcept (outcome : Except Error α) :
    wp monitor yields (ofExcept outcome) post locals history ↔ post outcome locals history := by
  cases outcome <;> rfl

@[simp]
theorem wp_getLocal {post : Except Error Local → Local → History → Prop} :
    wp monitor yields getLocal post locals history ↔ post (.ok locals) locals history := Iff.rfl

@[simp]
theorem wp_modifyLocal (change : Local → Local) {post : Except Error Unit → Local → History → Prop} :
    wp monitor yields (modifyLocal change) post locals history ↔
      post (.ok ()) (change locals) history := Iff.rfl

@[simp]
theorem wp_emit (out : Out) {post : Except Error Unit → Local → History → Prop} :
    wp monitor yields (emit out) post locals history ↔
      yields out (fun later => post (.ok ()) locals later) history := Iff.rfl

/-- An operation has to be allowed, and each of its answers has to be good. -/
theorem wp_await (raised : Fault → Error) (op : Op)
    {post : Except Error (Val op) → Local → History → Prop} :
    wp monitor yields (await raised op) post locals history ↔
      monitor.allowed history op ∧
      (∀ value, post (.ok value) locals (monitor.next history op (.ok value))) ∧
      ∀ fault, post (.error (raised fault)) locals (monitor.next history op (.error fault)) := by
  refine and_congr_right fun _ => ⟨fun h => ⟨fun value => h (.ok value), fun fault =>
    h (.error fault)⟩, fun h answer => ?_⟩
  cases answer with
  | ok value => exact h.1 value
  | error fault => exact h.2 fault

@[simp]
theorem wp_tryCatch (code : Async Op Val Fault Error Out Local α)
    (handler : Error → Async Op Val Fault Error Out Local α) :
    wp monitor yields (tryCatch code handler) post locals history ↔
      wp monitor yields code (either (fun value => post (.ok value))
        fun error => wp monitor yields (handler error) post) locals history := by
  unfold tryCatch
  rw [wp_bind, wp_attempt]
  refine iff_of_eq (congrArg (fun post => wp monitor yields code post locals history) ?_)
  funext outcome
  cases outcome <;> rfl

@[simp]
theorem wp_tryFinally (code : Async Op Val Fault Error Out Local α)
    (cleanup : Async Op Val Fault Error Out Local Unit) :
    wp monitor yields (tryFinally code cleanup) post locals history ↔
      wp monitor yields code (fun outcome => wp monitor yields cleanup
        (either (fun _ => post outcome) fun error => post (.error error))) locals history := by
  unfold tryFinally
  rw [wp_bind, wp_attempt]
  refine iff_of_eq (congrArg (fun post => wp monitor yields code post locals history) ?_)
  funext outcome locals history
  simp only [either_ok, wp_bind]
  refine congrArg (fun post => wp monitor yields cleanup post locals history) ?_
  funext cleaned
  cases cleaned with
  | ok => exact funext fun locals => funext fun history => propext (wp_ofExcept outcome)
  | error error => rfl

@[simp]
theorem wp_ite (condition : Prop) [Decidable condition]
    (first second : Async Op Val Fault Error Out Local α) :
    wp monitor yields (if condition then first else second) post locals history ↔
      if condition then wp monitor yields first post locals history
      else wp monitor yields second post locals history := by
  split <;> rfl

/-- A weaker postcondition is as good. -/
theorem wp_mono {weaker : Except Error α → Local → History → Prop}
    {code : Async Op Val Fault Error Out Local α} (hyields : Program.Monotone yields)
    (h : wp monitor yields code post locals history)
    (hpost : ∀ outcome locals history, post outcome locals history →
      weaker outcome locals history) :
    wp monitor yields code weaker locals history := by
  unfold wp at h ⊢
  refine Program.wp_mono hyields ?_ h
  exact fun result => hpost result.1 result.2

/-! ### Triples -/

variable (monitor yields) in
/-- Started where `pre` holds, the code keeps to the monitor, ends where `post` holds and raises
where `raises` does. -/
def Triple (pre : Local → History → Prop) (code : Async Op Val Fault Error Out Local α)
    (post : α → Local → History → Prop) (raises : Error → Local → History → Prop) : Prop :=
  ∀ locals history, pre locals history →
    wp monitor yields code (either post raises) locals history

section

variable {pre : Local → History → Prop} {middle : α → Local → History → Prop}
  {goal : β → Local → History → Prop} {raises raises' : Error → Local → History → Prop}
  {code : Async Op Val Fault Error Out Local α}
  {continuation : α → Async Op Val Fault Error Out Local β}

/-- The rule of a call: what the callee promises is all the caller knows. -/
theorem Triple.call (hyields : Program.Monotone yields)
    (htriple : Triple monitor yields pre code middle raises) (hpre : pre locals history)
    (hvalue : ∀ value locals history, middle value locals history → post (.ok value) locals history)
    (herror : ∀ error locals history, raises error locals history →
      post (.error error) locals history) :
    wp monitor yields code post locals history := by
  refine wp_mono hyields (htriple locals history hpre) ?_
  intro outcome locals history houtcome
  cases outcome with
  | ok value => exact hvalue value locals history houtcome
  | error error => exact herror error locals history houtcome

theorem Triple.bind (hyields : Program.Monotone yields)
    (hfirst : Triple monitor yields pre code middle raises)
    (hrest : ∀ value, Triple monitor yields (middle value) (continuation value) goal raises) :
    Triple monitor yields pre (code >>= continuation) goal raises := by
  intro locals history hpre
  rw [wp_bind]
  exact hfirst.call hyields hpre (fun value locals history => hrest value locals history)
    fun _ _ _ herror => herror

theorem Triple.conseq (hyields : Program.Monotone yields)
    (htriple : Triple monitor yields pre code middle raises)
    {pre' : Local → History → Prop} {middle' : α → Local → History → Prop}
    (hpre : ∀ locals history, pre' locals history → pre locals history)
    (hvalue : ∀ value locals history, middle value locals history → middle' value locals history)
    (herror : ∀ error locals history, raises error locals history →
      raises' error locals history) :
    Triple monitor yields pre' code middle' raises' :=
  fun _ _ hgiven => htriple.call hyields (hpre _ _ hgiven) hvalue herror

end

/-! ### Invariants -/

variable (monitor yields) in
/-- Code that keeps an invariant, whether it returns or raises. -/
abbrev Keeps (Inv : Local → History → Prop) (code : Async Op Val Fault Error Out Local α) : Prop :=
  Triple monitor yields Inv code (fun _ => Inv) fun _ => Inv

section

variable {Inv : Local → History → Prop} {code : Async Op Val Fault Error Out Local α}
  {continuation : α → Async Op Val Fault Error Out Local β}

theorem keeps_pure (value : α) :
    Keeps monitor yields Inv (pure value : Async Op Val Fault Error Out Local α) := fun _ _ h => h

theorem keeps_throw (error : Error) :
    Keeps monitor yields Inv (throw error : Async Op Val Fault Error Out Local α) := fun _ _ h => h

theorem keeps_modifyLocal (change : Local → Local)
    (hchange : ∀ locals history, Inv locals history → Inv (change locals) history) :
    Keeps monitor yields Inv (modifyLocal change : Async Op Val Fault Error Out Local Unit) := hchange

theorem keeps_await (raised : Fault → Error) {op : Op}
    (hop : ∀ locals history, Inv locals history → monitor.allowed history op ∧
      ∀ answer, Inv locals (monitor.next history op answer)) :
    Keeps monitor yields Inv (await raised op : Async Op Val Fault Error Out Local (Val op)) := by
  intro locals history h
  obtain ⟨hallowed, hnext⟩ := hop locals history h
  exact (wp_await raised op).mpr ⟨hallowed, fun value => hnext (.ok value),
    fun fault => hnext (.error fault)⟩

theorem Keeps.bind (hyields : Program.Monotone yields) (hfirst : Keeps monitor yields Inv code)
    (hlater : ∀ value, Keeps monitor yields Inv (continuation value)) :
    Keeps monitor yields Inv (code >>= continuation) := Triple.bind hyields hfirst hlater

theorem Keeps.attempt (hyields : Program.Monotone yields) (h : Keeps monitor yields Inv code) :
    Keeps monitor yields Inv (attempt code) := by
  intro locals history hinv
  rw [wp_attempt]
  exact h.call hyields hinv (fun _ _ _ h => h) fun _ _ _ h => h

theorem Keeps.tryCatch (hyields : Program.Monotone yields) (h : Keeps monitor yields Inv code)
    {handler : Error → Async Op Val Fault Error Out Local α}
    (hhandler : ∀ error, Keeps monitor yields Inv (handler error)) :
    Keeps monitor yields Inv (tryCatch code handler) := by
  intro locals history hinv
  rw [wp_tryCatch]
  exact h.call hyields hinv (fun _ _ _ h => h) fun error locals history h =>
    hhandler error locals history h

theorem Keeps.tryFinally (hyields : Program.Monotone yields) (h : Keeps monitor yields Inv code)
    {cleanup : Async Op Val Fault Error Out Local Unit}
    (hcleanup : Keeps monitor yields Inv cleanup) :
    Keeps monitor yields Inv (tryFinally code cleanup) := by
  refine (h.attempt hyields).bind hyields fun outcome => hcleanup.bind hyields fun _ => ?_
  cases outcome with
  | ok value => exact keeps_pure value
  | error error => exact keeps_throw error

theorem Keeps.ite {condition : Prop} [Decidable condition]
    {other : Async Op Val Fault Error Out Local α} (h : Keeps monitor yields Inv code)
    (hother : Keeps monitor yields Inv other) :
    Keeps monitor yields Inv (if condition then code else other) := by
  split
  · exact h
  · exact hother

end

/-! ### Loops over a generator -/

/-- A monitor that looks at the second part of the history. -/
def overLocals (monitor : Monitor Op Val Fault History) :
    Monitor Op Val Fault (Local × History) where
  allowed history op := monitor.allowed history.2 op
  next history op answer := (history.1, monitor.next history.2 op answer)

variable (monitor yields) in
/-- The body of a loop as the consumer of what a generator yields. -/
def consumer (body : Inner → Async Op Val Fault Error Out Local (Option β))
    (post : Except Error (Option β) → Local → History → Prop) (out : Inner)
    (rest : Local × History → Prop) (now : Local × History) : Prop :=
  wp monitor yields (body out) (either (fun
    | none => fun locals history => rest (locals, history)
    | some value => post (.ok (some value)))
    fun error => post (.error error)) now.1 now.2

theorem monotone_consumer (hyields : Program.Monotone yields)
    (body : Inner → Async Op Val Fault Error Out Local (Option β))
    (post : Except Error (Option β) → Local → History → Prop) :
    Program.Monotone (consumer monitor yields body post) := by
  intro out rest weaker now hweaker h
  refine wp_mono hyields h ?_
  intro outcome locals history houtcome
  match outcome with
  | .ok none => exact hweaker _ houtcome
  | .ok (some _) | .error _ => exact houtcome

/-- **The loop rule.** The generator is checked with the body of the loop as the consumer of what it
yields; the variables of the loop are part of the history the generator is checked against. -/
theorem wp_forEach (body : Inner → Async Op Val Fault Error Out Local (Option β))
    {post : Except Error (Option β) → Local → History → Prop}
    (program : Program Op Val Fault Inner (Except Error Unit)) (locals : Local)
    (history : History) :
    wp monitor yields (forEach body program) post locals history ↔
      program.wp (overLocals monitor) (consumer monitor yields body post)
        (fun outcome now => post (outcome.map fun _ => none) now.1 now.2) (locals, history) := by
  induction program generalizing locals history with
  | ret outcome =>
      cases outcome with
      | ok value => exact Iff.rfl
      | error error => exact Iff.rfl
  | call op next ih =>
      exact and_congr_right fun _ => forall_congr' fun answer => ih answer locals _
  | emit out rest ih =>
      unfold forEach
      rw [wp_bind]
      refine iff_of_eq (congrArg (fun post => wp monitor yields (body out) post locals history) ?_)
      funext outcome locals history
      cases outcome with
      | error error => rfl
      | ok result =>
          cases result with
          | none => exact propext (ih locals history)
          | some value => rfl

theorem wp_generator {State : Type} (code : Async Op Val Fault Error Out State Unit) (state : State)
    {post : Except Error Unit → History → Prop} :
    (generator code state).wp monitor yields post history ↔
      wp monitor yields code (fun outcome _ => post outcome) state history := by
  unfold generator wp
  rw [Program.wp_bind]
  rfl

end Async
