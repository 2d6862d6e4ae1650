import CodexServer.Transport

/-!
# What a step of the client can do

The step function read backwards, once for all: each case names what was there before the step and
gives the client after it.
-/

namespace CodexServer.Transport

open AppServerClient (serve respond)

variable {Value : Type} {env : Env Value} {client next : AppServerClient Value}

inductive StepCase (env : Env Value) (client : AppServerClient Value) :
    Action Value → AppServerClient Value → Prop
  | connected (hopen : client.explicitClose = false) (hidle : client.connected = false) :
      StepCase env client .connect { client with connected := true, disconnected := false }
  | refused : StepCase env client .request client
  | registered (hopen : client.explicitClose = false) (hconnected : client.connected = true) :
      StepCase env client .request client.register
  | sent {id : Nat} {call : Call} (hcall : client.calls id = some call)
      (hphase : call.phase.isSending = true) :
      StepCase env client (.sent id) (client.setCall id { call with phase := .waiting })
  | sendFailed {id : Nat} {call : Call} {cancelled : Bool} (hcall : client.calls id = some call)
      (hphase : call.phase.isSending = true) :
      StepCase env client (.sendFails id cancelled) (client.setCall id { call with
        phase := .ended (if cancelled then .cancelled else .sendError) })
  | resumed {id : Nat} {call : Call} {outcome : Outcome} (hcall : client.calls id = some call)
      (hphase : call.phase.isWaiting = true) (hfuture : call.future.outcome? = some outcome) :
      StepCase env client (.resume id) (client.leave id call outcome)
  | timedOut {id : Nat} {call : Call} (hcall : client.calls id = some call)
      (hphase : call.phase.isWaiting = true) :
      StepCase env client (.timeOut id) (client.leave id (call.settle .cancelled) .timeout)
  | cancelled {id : Nat} {call : Call} (hcall : client.calls id = some call)
      (hphase : call.phase.isWaiting = true) :
      StepCase env client (.cancel id) (client.leave id (call.settle .cancelled) .cancelled)
  | received {raw : Frame} {after : AppServerClient Value} (hconnected : client.connected = true)
      (hopen : client.explicitClose = false)
      (hreceive : (client.noteResponse env raw).receive env raw = .ok after) :
      StepCase env client (.frame raw) after
  | crashed {raw : Frame} {error : ReaderError} (hconnected : client.connected = true)
      (hopen : client.explicitClose = false)
      (hreceive : (client.noteResponse env raw).receive env raw = .error error) :
      StepCase env client (.frame raw)
        { (client.noteResponse env raw).readerEnds with crashed := true }
  | taken {entry : Option Notification} {rest : List (Option Notification)}
      (hqueue : client.notifications = entry :: rest) :
      StepCase env client .take { client with
        notifications := rest
        queueEvents := client.queueEvents ++ [.take]
        received := client.received ++ [entry] }
  | lost (hconnected : client.connected = true) : StepCase env client .lose client.readerEnds
  | closing (hopen : client.explicitClose = false) :
      StepCase env client .beginClose { client with explicitClose := true }
  | closed (hclosing : client.explicitClose = true) (hopen : client.closed = false) :
      StepCase env client .finishClose client.finishClose
  | served {index : Nat} {task : RequestTask Value} (htask : client.tasks[index]? = some task)
      (hphase : task.phase = .spawned) :
      StepCase env client (.serve index) (client.modifyTask index (serve env))
  | returned {index : Nat} {task : RequestTask Value} {value : Value}
      (htask : client.tasks[index]? = some task) (hphase : task.phase = .handling) :
      StepCase env client (.handlerReturns index value) (client.modifyTask index fun task =>
        { task with phase := .responding ⟨task.id, .result value⟩ })
  | raised {index : Nat} {task : RequestTask Value} {text : String}
      (htask : client.tasks[index]? = some task) (hphase : task.phase = .handling) :
      StepCase env client (.handlerRaises index text) (client.modifyTask index fun task =>
        { task with phase := .responding ⟨task.id, .error internalError text⟩ })
  | responded {index : Nat} {task : RequestTask Value} {response : Response Value}
      (htask : client.tasks[index]? = some task) (hphase : task.phase = .responding response) :
      StepCase env client (.respond index)
        (client.modifyTask index (respond env client.connected response))
  | respondFailed {index : Nat} {task : RequestTask Value} {response : Response Value}
      (htask : client.tasks[index]? = some task) (hphase : task.phase = .responding response) :
      StepCase env client (.respondFails index) (client.modifyTask index fun task =>
        { task with phase := .ended, socketOpen := false })
  | taskCancelled {index : Nat} (hclosing : client.explicitClose = true) :
      StepCase env client (.cancelTask index) (client.modifyTask index fun task =>
        { task with phase := .ended, socketOpen := false })

/-- What is done to something that is found and passes a check. -/
theorem checked_eq_some {Item Result : Type} {found : Option Item} {check : Item → Bool}
    {change : Item → Result} {result : Result}
    (h : (found.bind fun item => if check item then some (change item) else none) = some result) :
    ∃ item, found = some item ∧ check item = true ∧ change item = result := by
  obtain ⟨item, hfound, hrest⟩ := Option.bind_eq_some_iff.mp h
  obtain ⟨hcheck, hsame⟩ := Option.ite_none_right_eq_some.mp hrest
  exact ⟨item, hfound, hcheck, Option.some.inj hsame⟩

theorem frame_cases {raw : Frame} (hstep : step env client (.frame raw) = some next) :
    StepCase env client (.frame raw) next := by
  obtain ⟨hreads, hrest⟩ := Option.ite_none_right_eq_some.mp hstep
  simp only [Bool.and_eq_true, Bool.not_eq_true'] at hreads
  split at hrest
  case h_1 after hreceive =>
      cases hrest
      exact .received hreads.1 hreads.2 hreceive
  case h_2 error hreceive =>
      cases hrest
      exact .crashed hreads.1 hreads.2 hreceive

/-- A task that has not ended is cancelled when the client closes. -/
theorem cancelTask_cases {index : Nat} (hstep : step env client (.cancelTask index) = some next) :
    StepCase env client (.cancelTask index) next := by
  obtain ⟨task, htask, hrest⟩ := Option.bind_eq_some_iff.mp hstep
  cases hphase : task.phase with
  | ended =>
      rw [hphase] at hrest
      cases hrest
  | spawned | handling | responding =>
      rw [hphase] at hrest
      obtain ⟨hclosing, hsame⟩ := Option.ite_none_right_eq_some.mp hrest
      cases hsame
      exact .taskCancelled hclosing

theorem step_cases {action : Action Value} (hstep : step env client action = some next) :
    StepCase env client action next := by
  cases action with
  | connect =>
      obtain ⟨hfree, hsame⟩ := Option.ite_none_left_eq_some.mp hstep
      cases hsame
      simp only [Bool.or_eq_true, not_or, Bool.not_eq_true] at hfree
      exact .connected hfree.1 hfree.2
  | request =>
      simp only [step] at hstep
      split at hstep
      case isTrue =>
          cases hstep
          exact .refused
      case isFalse hopen =>
          cases hstep
          simp only [Bool.or_eq_true, not_or, Bool.not_eq_true, Bool.not_eq_false'] at hopen
          exact .registered hopen.1 (by simpa using hopen.2)
  | sent id =>
      obtain ⟨call, hcall, hphase, rfl⟩ := checked_eq_some hstep
      exact .sent hcall hphase
  | sendFails id cancelled =>
      obtain ⟨call, hcall, hphase, rfl⟩ := checked_eq_some hstep
      exact .sendFailed hcall hphase
  | resume id =>
      obtain ⟨call, hcall, hrest⟩ := Option.bind_eq_some_iff.mp hstep
      obtain ⟨outcome, hfuture, hphase, rfl⟩ := checked_eq_some hrest
      exact .resumed hcall hphase hfuture
  | timeOut id =>
      obtain ⟨call, hcall, hphase, rfl⟩ := checked_eq_some hstep
      exact .timedOut hcall hphase
  | cancel id =>
      obtain ⟨call, hcall, hphase, rfl⟩ := checked_eq_some hstep
      exact .cancelled hcall hphase
  | frame raw => exact frame_cases hstep
  | take =>
      simp only [step] at hstep
      split at hstep
      case h_1 => cases hstep
      case h_2 entry rest hqueue =>
          cases hstep
          exact .taken hqueue
  | lose =>
      obtain ⟨hconnected, hsame⟩ := Option.ite_none_right_eq_some.mp hstep
      cases hsame
      exact .lost hconnected
  | beginClose =>
      obtain ⟨hopen, hsame⟩ := Option.ite_none_left_eq_some.mp hstep
      cases hsame
      exact .closing (by simpa using hopen)
  | finishClose =>
      obtain ⟨hclosing, hsame⟩ := Option.ite_none_right_eq_some.mp hstep
      cases hsame
      simp only [Bool.and_eq_true, Bool.not_eq_true'] at hclosing
      exact .closed hclosing.1 hclosing.2
  | serve index =>
      obtain ⟨task, htask, hrest⟩ := Option.bind_eq_some_iff.mp hstep
      cases hphase : task.phase <;> rw [hphase] at hrest <;> cases hrest
      exact .served htask hphase
  | handlerReturns index value =>
      obtain ⟨task, htask, hrest⟩ := Option.bind_eq_some_iff.mp hstep
      cases hphase : task.phase <;> rw [hphase] at hrest <;> cases hrest
      exact .returned htask hphase
  | handlerRaises index text =>
      obtain ⟨task, htask, hrest⟩ := Option.bind_eq_some_iff.mp hstep
      cases hphase : task.phase <;> rw [hphase] at hrest <;> cases hrest
      exact .raised htask hphase
  | respond index =>
      obtain ⟨task, htask, hrest⟩ := Option.bind_eq_some_iff.mp hstep
      cases hphase : task.phase <;> rw [hphase] at hrest <;> cases hrest
      exact .responded htask hphase
  | respondFails index =>
      obtain ⟨task, htask, hrest⟩ := Option.bind_eq_some_iff.mp hstep
      cases hphase : task.phase <;> rw [hphase] at hrest <;> cases hrest
      exact .respondFailed htask hphase
  | cancelTask index => exact cancelTask_cases hstep

end CodexServer.Transport
