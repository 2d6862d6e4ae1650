import CodexServer.Library.Program

/-!
# Programs among well-behaved answers

A program is safe that does only what is allowed, as long as it is answered only what is assumed. There
is no history: what is allowed and assumed is the same all along, and what has to be remembered is an
invariant of the local variables.
-/

variable {Op : Type} {Val : Op → Type} {Fault Error Out Inner α β Local : Type}
  {allowed : Op → Prop} {assumed : (op : Op) → Except Fault (Val op) → Prop} {yields : Out → Prop}

namespace Program

variable (allowed assumed yields) in
def Safe : Program Op Val Fault Out α → (α → Prop) → Prop
  | ret value, post => post value
  | call op next, post => allowed op ∧ ∀ answer, assumed op answer → (next answer).Safe post
  | emit out rest, post => yields out ∧ rest.Safe post

theorem safe_bind {program : Program Op Val Fault Out α}
    {continuation : α → Program Op Val Fault Out β} {post : β → Prop} :
    (program.bind continuation).Safe allowed assumed yields post ↔
      program.Safe allowed assumed yields fun value =>
        (continuation value).Safe allowed assumed yields post := by
  induction program with
  | ret value => rfl
  | call op next ih => exact and_congr_right fun _ => forall₂_congr fun answer _ => ih answer
  | emit out rest ih => exact and_congr_right fun _ => ih

/-- A weaker postcondition is as good. -/
theorem Safe.mono {post weaker : α → Prop} {program : Program Op Val Fault Out α}
    (h : program.Safe allowed assumed yields post) (hpost : ∀ value, post value → weaker value) :
    program.Safe allowed assumed yields weaker := by
  induction program with
  | ret value => exact hpost value h
  | call op next ih => exact ⟨h.1, fun answer hanswer => ih answer (h.2 answer hanswer)⟩
  | emit out rest ih => exact ⟨h.1, ih h.2⟩

end Program

namespace Async

variable (allowed assumed yields) in
/-- Code that is safe and keeps an invariant; what it returns and raises is as stated. -/
def Safe (Inv : Local → Prop) (returns : α → Prop) (raises : Error → Prop)
    (code : Async Op Val Fault Error Out Local α) : Prop :=
  ∀ locals, Inv locals → (code locals).Safe allowed assumed yields fun result =>
    Inv result.2 ∧ (∀ value, result.1 = .ok value → returns value) ∧
      ∀ error, result.1 = .error error → raises error

variable {Inv : Local → Prop} {returns : α → Prop} {later : β → Prop} {raises : Error → Prop}
  {code : Async Op Val Fault Error Out Local α}

theorem Safe.weaken {weaker : α → Prop} {raises' : Error → Prop}
    (h : Safe allowed assumed yields Inv returns raises code)
    (hreturns : ∀ value, returns value → weaker value)
    (hraises : ∀ error, raises error → raises' error) :
    Safe allowed assumed yields Inv weaker raises' code := fun locals hinv =>
  (h locals hinv).mono fun _ hresult => ⟨hresult.1,
    fun value hvalue => hreturns value (hresult.2.1 value hvalue),
    fun error herror => hraises error (hresult.2.2 error herror)⟩

theorem safe_pure {value : α} (h : returns value) :
    Safe allowed assumed yields Inv returns raises
      (pure value : Async Op Val Fault Error Out Local α) := by
  refine fun locals hinv => ⟨hinv, fun found hfound => ?_, nofun⟩
  cases hfound
  exact h

theorem safe_throw {error : Error} (h : raises error) :
    Safe allowed assumed yields Inv returns raises
      (throw error : Async Op Val Fault Error Out Local α) := by
  refine fun locals hinv => ⟨hinv, nofun, fun found hfound => ?_⟩
  cases hfound
  exact h

theorem safe_getLocal : Safe allowed assumed yields Inv Inv raises
    (getLocal : Async Op Val Fault Error Out Local Local) := by
  refine fun locals hinv => ⟨hinv, fun found hfound => ?_, nofun⟩
  cases hfound
  exact hinv

theorem safe_modifyLocal {change : Local → Local} (h : ∀ locals, Inv locals → Inv (change locals)) :
    Safe allowed assumed yields Inv (fun _ => True) raises
      (modifyLocal change : Async Op Val Fault Error Out Local Unit) :=
  fun locals hinv => ⟨h locals hinv, fun _ _ => trivial, nofun⟩

theorem safe_emit {out : Out} (h : yields out) :
    Safe allowed assumed yields Inv (fun _ => True) raises
      (emit out : Async Op Val Fault Error Out Local Unit) :=
  fun _ hinv => ⟨h, hinv, fun _ _ => trivial, nofun⟩

theorem safe_await {raised : Fault → Error} {op : Op} {returns : Val op → Prop} (hop : allowed op)
    (hvalue : ∀ value, assumed op (.ok value) → returns value)
    (hfault : ∀ fault, assumed op (.error fault) → raises (raised fault)) :
    Safe allowed assumed yields Inv returns raises
      (await raised op : Async Op Val Fault Error Out Local (Val op)) := by
  refine fun locals hinv => ⟨hop, fun answer hanswer => ?_⟩
  cases answer with
  | ok value =>
      refine ⟨hinv, fun found hfound => ?_, nofun⟩
      cases hfound
      exact hvalue value hanswer
  | error fault =>
      refine ⟨hinv, nofun, fun found hfound => ?_⟩
      cases hfound
      exact hfault fault hanswer

theorem Safe.bind {continuation : α → Async Op Val Fault Error Out Local β}
    (h : Safe allowed assumed yields Inv returns raises code)
    (hrest : ∀ value, returns value →
      Safe allowed assumed yields Inv later raises (continuation value)) :
    Safe allowed assumed yields Inv later raises (code >>= continuation) := by
  intro locals hinv
  refine Program.safe_bind.mpr ((h locals hinv).mono ?_)
  rintro ⟨outcome, locals⟩ ⟨hinv, hreturns, hraises⟩
  cases outcome with
  | ok value => exact hrest value (hreturns value rfl) locals hinv
  | error error =>
      refine ⟨hinv, nofun, fun found hfound => ?_⟩
      cases hfound
      exact hraises error rfl

theorem Safe.andThen {continuation : α → Async Op Val Fault Error Out Local β}
    (h : Safe allowed assumed yields Inv (fun _ => True) raises code)
    (hrest : ∀ value, Safe allowed assumed yields Inv later raises (continuation value)) :
    Safe allowed assumed yields Inv later raises (code >>= continuation) :=
  h.bind fun value _ => hrest value

theorem Safe.ite {condition : Prop} [Decidable condition]
    {other : Async Op Val Fault Error Out Local α}
    (h : Safe allowed assumed yields Inv returns raises code)
    (hother : Safe allowed assumed yields Inv returns raises other) :
    Safe allowed assumed yields Inv returns raises (if condition then code else other) := by
  split
  · exact h
  · exact hother

/-- What an attempt returns: the outcome. -/
def outcomes (returns : α → Prop) (raises : Error → Prop) : Except Error α → Prop
  | .ok value => returns value
  | .error error => raises error

theorem Safe.attempt {never : Error → Prop}
    (h : Safe allowed assumed yields Inv returns raises code) :
    Safe allowed assumed yields Inv (outcomes returns raises) never (attempt code) := by
  intro locals hinv
  refine Program.safe_bind.mpr ((h locals hinv).mono ?_)
  rintro ⟨outcome, locals⟩ ⟨hinv, hreturns, hraises⟩
  refine ⟨hinv, fun found hfound => ?_, nofun⟩
  cases hfound
  cases outcome with
  | ok value => exact hreturns value rfl
  | error error => exact hraises error rfl

theorem Safe.tryCatch {raises' : Error → Prop}
    {handler : Error → Async Op Val Fault Error Out Local α}
    (h : Safe allowed assumed yields Inv returns raises code)
    (hhandler : ∀ error, raises error →
      Safe allowed assumed yields Inv returns raises' (handler error)) :
    Safe allowed assumed yields Inv returns raises' (tryCatch code handler) := by
  refine h.attempt.bind fun outcome houtcome => ?_
  cases outcome with
  | ok value => exact safe_pure houtcome
  | error error => exact hhandler error houtcome

theorem Safe.tryFinally {cleanup : Async Op Val Fault Error Out Local Unit}
    (h : Safe allowed assumed yields Inv returns raises code)
    (hcleanup : Safe allowed assumed yields Inv (fun _ => True) raises cleanup) :
    Safe allowed assumed yields Inv returns raises (tryFinally code cleanup) := by
  refine h.attempt.bind fun outcome houtcome => hcleanup.bind fun _ _ => ?_
  cases outcome with
  | ok value => exact safe_pure houtcome
  | error error => exact safe_throw houtcome

/-- **The loop rule.** The body may take what the generator yields for granted. -/
theorem safe_forEach {given : Inner → Prop}
    {body : Inner → Async Op Val Fault Error Out Local (Option β)}
    {program : Program Op Val Fault Inner (Except Error Unit)}
    (hprogram : program.Safe allowed assumed given fun outcome =>
      ∀ error, outcome = .error error → raises error)
    (hbody : ∀ out, given out →
      Safe allowed assumed yields Inv (fun _ => True) raises (body out)) :
    Safe allowed assumed yields Inv (fun _ => True) raises (forEach body program) := by
  induction program with
  | ret outcome =>
      refine Safe.andThen ?_ fun _ => safe_pure trivial
      cases outcome with
      | ok value => exact safe_pure trivial
      | error error => exact safe_throw (hprogram error rfl)
  | call op next ih =>
      exact fun locals hinv => ⟨hprogram.1, fun answer hanswer =>
        ih answer (hprogram.2 answer hanswer) locals hinv⟩
  | emit out rest ih =>
      refine (hbody out hprogram.1).bind fun result _ => ?_
      cases result with
      | none => exact ih hprogram.2
      | some value => exact safe_pure trivial

theorem safe_generator {State : Type} {code : Async Op Val Fault Error Out State Unit}
    {returns : Unit → Prop} {Inv : State → Prop} (state : State)
    (h : Safe allowed assumed yields Inv returns raises code) (hstate : Inv state) :
    (generator code state).Safe allowed assumed yields fun outcome =>
      ∀ error, outcome = .error error → raises error :=
  Program.safe_bind.mpr ((h state hstate).mono fun _ hresult => hresult.2.2)

end Async
