import CodexServer.Proof.Dispatch

/-!
# Requests and their responses

A call of the client ends with the first response that bears its id, whatever else happens to the
client, and leaves no entry behind unless its frame could not be sent. The other way round, each
request of the server gets one response.
-/

namespace CodexServer.Transport

open Transition (run RunAllowed Reach)

variable {Value : Type} {env : Env Value} {client next : AppServerClient Value}

/-! ### The calls -/

def CallPhase.suspended (phase : CallPhase) : Bool := phase.isSending || phase.isWaiting

/-- While the future is pending no response has come and the entry is there; an answer is the first
one there was. -/
structure CallLinked (pending : List Nat) (firstAnswers : Nat → Option Answer) (id : Nat)
    (call : Call) : Prop where
  entered : call.future.isPending = true → id ∈ pending ∧ firstAnswers id = none
  answered : ∀ answer, call.future = .answered answer → firstAnswers id = some answer
  outcome : ∀ answer, call.phase = .ended (.answered answer) → firstAnswers id = some answer

structure Linked (client : AppServerClient Value) : Prop where
  call : ∀ id call, client.calls id = some call →
    CallLinked client.pending client.firstAnswers id call
  fresh : ∀ id, client.nextId ≤ id → client.calls id = none
  known : ∀ id, client.calls id = none → client.firstAnswers id = none
  suspended : ∀ id ∈ client.pending, ∃ call, client.calls id = some call ∧
    call.phase.suspended = true

theorem linked_start (queueMax : Nat) : Linked (start queueMax : AppServerClient Value) where
  call := fun _ _ hcall => by cases hcall
  fresh := fun _ _ => rfl
  known := fun _ _ => rfl
  suspended := fun _ hid => by cases hid

theorem Linked.setCall (h : Linked client) {id : Nat} {call changed : Call}
    (hcall : client.calls id = some call)
    (hlinked : CallLinked client.pending client.firstAnswers id changed)
    (hsuspended : id ∈ client.pending → changed.phase.suspended = true) :
    Linked (client.setCall id changed) where
  call := fun other known hknown => by
    by_cases heq : other = id
    · subst heq
      simp only [AppServerClient.setCall, Function.update_self, Option.some.injEq] at hknown
      exact hknown ▸ hlinked
    · simp only [AppServerClient.setCall, Function.update_of_ne heq] at hknown
      exact h.call other known hknown
  fresh := fun other hother => by
    have hnone := h.fresh other hother
    have hne : other ≠ id := by
      rintro rfl
      rw [hnone] at hcall
      cases hcall
    simpa [AppServerClient.setCall, Function.update_of_ne hne] using hnone
  known := fun other hother => by
    by_cases heq : other = id
    · subst heq
      simp [AppServerClient.setCall] at hother
    · simp only [AppServerClient.setCall, Function.update_of_ne heq] at hother
      exact h.known other hother
  suspended := fun other hother => by
    by_cases heq : other = id
    · subst heq
      exact ⟨changed, by simp [AppServerClient.setCall], hsuspended hother⟩
    · obtain ⟨known, hknown, hphase⟩ := h.suspended other hother
      exact ⟨known, by simpa [AppServerClient.setCall, Function.update_of_ne heq] using hknown,
        hphase⟩

/-- A call ends once its future is done. -/
theorem Linked.leave (h : Linked client) {id : Nat} {call : Call} {outcome : Outcome}
    (hid : (client.calls id).isSome = true)
    (hdone : call.future.isPending = false)
    (hanswered : ∀ answer, call.future = .answered answer → client.firstAnswers id = some answer)
    (houtcome : ∀ answer, outcome = .answered answer → client.firstAnswers id = some answer) :
    Linked (client.leave id call outcome) := by
  obtain ⟨old, hold⟩ := Option.isSome_iff_exists.mp hid
  constructor
  case call =>
      intro other known hknown
      by_cases heq : other = id
      · subst heq
        simp only [AppServerClient.leave, AppServerClient.setCall, Function.update_self,
          Option.some.injEq] at hknown
        subst hknown
        refine ⟨fun hpending => ?_, hanswered, fun answer hphase => ?_⟩
        · exact absurd hpending (by simp [hdone])
        · exact houtcome answer (CallPhase.ended.inj hphase)
      · simp only [AppServerClient.leave, AppServerClient.setCall,
          Function.update_of_ne heq] at hknown
        have hlinked := h.call other known hknown
        refine ⟨fun hpending => ?_, hlinked.answered, hlinked.outcome⟩
        obtain ⟨hmem, hnone⟩ := hlinked.entered hpending
        exact ⟨List.mem_filter.mpr ⟨hmem, by simpa using heq⟩, hnone⟩
  case fresh =>
      intro other hother
      have hnone := h.fresh other hother
      have hne : other ≠ id := by
        rintro rfl
        rw [hnone] at hold
        cases hold
      simpa [AppServerClient.leave, AppServerClient.setCall, Function.update_of_ne hne] using hnone
  case known =>
      intro other hother
      by_cases heq : other = id
      · subst heq
        simp [AppServerClient.leave, AppServerClient.setCall] at hother
      · simp only [AppServerClient.leave, AppServerClient.setCall,
          Function.update_of_ne heq] at hother
        exact h.known other hother
  case suspended =>
      intro other hother
      obtain ⟨hmem, hne⟩ := List.mem_filter.mp hother
      have hne : other ≠ id := by simpa using hne
      obtain ⟨known, hknown, hphase⟩ := h.suspended other hmem
      refine ⟨known, ?_, hphase⟩
      simpa [AppServerClient.leave, AppServerClient.setCall, Function.update_of_ne hne] using hknown

theorem isPending_settle {future : RpcFuture} (hfuture : future.isPending = false) (call : Call) :
    (call.settle future).future.isPending = false := by
  unfold Call.settle
  split
  · exact hfuture
  · next hdone => simpa using hdone

theorem settle_answered {future : RpcFuture} {call : Call} {answer : Answer}
    (hfuture : future ≠ .answered answer) (h : (call.settle future).future = .answered answer) :
    call.future = .answered answer := by
  unfold Call.settle at h
  split at h
  · exact absurd h hfuture
  · exact h

@[simp]
theorem settle_phase (future : RpcFuture) (call : Call) :
    (call.settle future).phase = call.phase := by
  unfold Call.settle
  split <;> rfl

theorem Linked.failPending (h : Linked client) (text : String) :
    Linked (client.failPending text) := by
  constructor
  case call =>
      intro id known hknown
      simp only [AppServerClient.failPending] at hknown
      split at hknown
      case isTrue hmem =>
          obtain ⟨call, hcall, rfl⟩ := Option.map_eq_some_iff.mp hknown
          have hlinked := h.call id call hcall
          refine ⟨fun hpending => ?_, fun answer hanswer => ?_, fun answer hphase => ?_⟩
          · have hdone : (call.settle (.connectionError text)).future.isPending = false :=
              isPending_settle rfl call
            rw [hdone] at hpending
            cases hpending
          · exact hlinked.answered answer (settle_answered (by simp) hanswer)
          · exact hlinked.outcome answer (by simpa using hphase)
      case isFalse hmem =>
          have hlinked := h.call id known hknown
          exact ⟨fun hpending => absurd (hlinked.entered hpending).1 hmem, hlinked.answered,
            hlinked.outcome⟩
  case fresh =>
      intro id hid
      simp [AppServerClient.failPending, h.fresh id hid]
  case known =>
      intro id hid
      refine h.known id ?_
      simp only [AppServerClient.failPending] at hid
      split at hid
      · exact Option.map_eq_none_iff.mp hid
      · exact hid
  case suspended => exact fun id hid => by cases hid

theorem Linked.register (h : Linked client) : Linked client.register := by
  have hnone := h.fresh client.nextId le_rfl
  constructor
  case call =>
      intro id known hknown
      by_cases heq : id = client.nextId
      · subst heq
        simp only [AppServerClient.register, AppServerClient.setCall, Function.update_self,
          Option.some.injEq] at hknown
        subst hknown
        refine ⟨fun _ => ⟨?_, h.known _ hnone⟩, fun answer hanswer => ?_, fun answer hphase => ?_⟩
        · exact List.mem_append_right _ (List.mem_singleton_self _)
        · cases hanswer
        · cases hphase
      · simp only [AppServerClient.register, AppServerClient.setCall,
          Function.update_of_ne heq] at hknown
        have hlinked := h.call id known hknown
        refine ⟨fun hpending => ?_, hlinked.answered, hlinked.outcome⟩
        obtain ⟨hmem, hfirst⟩ := hlinked.entered hpending
        exact ⟨List.mem_append_left _ hmem, hfirst⟩
  case fresh =>
      intro id hid
      simp only [AppServerClient.register, AppServerClient.setCall] at hid ⊢
      rw [Function.update_of_ne (by omega)]
      exact h.fresh id (by omega)
  case known =>
      intro id hid
      by_cases heq : id = client.nextId
      · subst heq
        simp [AppServerClient.register, AppServerClient.setCall] at hid
      · simp only [AppServerClient.register, AppServerClient.setCall,
          Function.update_of_ne heq] at hid
        exact h.known id hid
  case suspended =>
      intro id hid
      by_cases heq : id = client.nextId
      · subst heq
        exact ⟨{}, by simp [AppServerClient.register, AppServerClient.setCall], rfl⟩
      · simp only [AppServerClient.register, AppServerClient.setCall, List.mem_append,
          List.mem_singleton, heq, or_false] at hid
        obtain ⟨known, hknown, hphase⟩ := h.suspended id hid
        refine ⟨known, ?_, hphase⟩
        simpa [AppServerClient.register, AppServerClient.setCall, Function.update_of_ne heq]
          using hknown

/-! ### Responses -/

/-- A frame that is a response is a well-formed one. -/
def formedResponse (env : Env Value) (raw : Frame) : Bool :=
  match message? env raw with
  | some (.object fields) =>
      (idOf fields).isNone || (fields.lookup "method").isSome ||
        wellFormedMessage (.object fields)
  | _ => true

section

variable {raw : Frame} {fields : List (String × Json)}

theorem response?_of_answered {id : Json} {answer : Answer}
    (hmessage : message? env raw = some (.object fields)) (hid : idOf fields = some id)
    (hmethod : fields.lookup "method" = none) (hformed : formedResponse env raw = true)
    (hanswer : Answer.ofMessage (.object fields) = .ok answer) :
    ∃ value : ℚ, id = .number value ∧ response? env raw = some (value.num.toNat, answer) := by
  have hwell : wellFormedMessage (.object fields) = true := by
    simpa [formedResponse, hmessage, hid, hmethod] using hformed
  cases id with
  | number value =>
      refine ⟨value, rfl, ?_⟩
      simp [response?, hmessage, Option.filter, hwell, hid, hmethod, hanswer, Except.toOption]
  | null | bool _ | string _ | array _ | object _ =>
      simp [wellFormedMessage, hid, hmethod] at hwell

theorem response?_eq_some {id : Nat} {answer : Answer} (h : response? env raw = some (id, answer)) :
    ∃ (fields : List (String × Json)) (value : ℚ), message? env raw = some (.object fields) ∧
      wellFormedMessage (.object fields) = true ∧
      idOf fields = some (.number value) ∧ fields.lookup "method" = none ∧
      Answer.ofMessage (.object fields) = .ok answer ∧ value.num.toNat = id := by
  unfold response? at h
  split at h
  case h_2 => cases h
  case h_1 fields hmessage =>
      obtain ⟨hmessage, hwell⟩ := Option.filter_eq_some_iff.mp hmessage
      split at h
      case h_2 => cases h
      case h_1 value found hid hmethod hanswer =>
          cases h
          refine ⟨fields, value, hmessage, hwell, hid, hmethod, ?_, rfl⟩
          cases hresult : Answer.ofMessage (.object fields) with
          | error error =>
              rw [hresult] at hanswer
              cases hanswer
          | ok found =>
              rw [hresult] at hanswer
              cases hanswer
              rfl

theorem pendingId?_of_mem {id : Nat} (hid : id ∈ client.pending) :
    client.pendingId? (.number (id : ℚ)) = .ok (some id) := by
  simp only [AppServerClient.pendingId?, Nat.cast_inj, Except.ok.injEq]
  cases hfind : client.pending.find? fun other => other = id with
  | none =>
      have hno := List.find?_eq_none.mp hfind id hid
      simp at hno
  | some found =>
      have heq : found = id := by simpa using List.find?_some hfind
      rw [heq]

/-- A response whose call still waits for it is not lost. -/
theorem awaited_of_pending {value : ℚ} {call : Call} (hwell : value.isInt = true)
    (hnonneg : 0 ≤ value.num) (hpending : value.num.toNat ∈ client.pending)
    (hcall : client.calls value.num.toNat = some call) (hfuture : call.future.isPending = true) :
    client.awaited (.number value) = some (value.num.toNat, call) := by
  have hvalue : ((value.num.toNat : Nat) : ℚ) = value := by
    have hnum : ((value.num.toNat : Nat) : ℤ) = value.num := Int.toNat_of_nonneg hnonneg
    have hden : (value.num : ℚ) = value := by
      rw [Rat.isInt, beq_iff_eq] at hwell
      exact (Rat.den_eq_one_iff value).mp hwell
    calc ((value.num.toNat : Nat) : ℚ) = ((value.num.toNat : ℤ) : ℚ) := by push_cast; rfl
      _ = value := by rw [hnum, hden]
  have hfound : client.pendingId? (.number value) = .ok (some value.num.toNat) := by
    conv_lhs => rw [← hvalue]
    exact pendingId?_of_mem hpending
  simp [AppServerClient.awaited, hfound, hcall, hfuture]

/-- A response that nobody waits for changes nothing for the calls. -/
theorem Linked.note (h : Linked client)
    (hlate : ∀ id answer call, response? env raw = some (id, answer) →
      client.calls id = some call → call.future.isPending = false) :
    Linked (client.noteResponse env raw) := by
  unfold AppServerClient.noteResponse
  split
  case h_2 => exact h
  case h_1 id answer hresponse =>
      split
      case isFalse => exact h
      case isTrue hfirst =>
          simp only [Bool.and_eq_true, Option.isNone_iff_eq_none] at hfirst
          obtain ⟨call, hcall⟩ := Option.isSome_iff_exists.mp hfirst.1
          have hkept : ∀ other stored, client.firstAnswers other = some stored →
              Function.update client.firstAnswers id (some answer) other = some stored := by
            intro other stored hstored
            have hne : other ≠ id := by
              rintro rfl
              rw [hfirst.2] at hstored
              cases hstored
            rw [Function.update_of_ne hne, hstored]
          constructor
          case call =>
              intro other known hknown
              have hlinked := h.call other known hknown
              refine ⟨fun hpending => ?_, fun answer hanswer => ?_, fun answer hphase => ?_⟩
              · have hne : other ≠ id := by
                  rintro rfl
                  rw [hlate _ _ _ hresponse hknown] at hpending
                  cases hpending
                simpa [Function.update_of_ne hne] using hlinked.entered hpending
              · exact hkept _ _ (hlinked.answered answer hanswer)
              · exact hkept _ _ (hlinked.outcome answer hphase)
          case fresh => exact h.fresh
          case known =>
              intro other hother
              have hne : other ≠ id := by
                rintro rfl
                rw [hcall] at hother
                cases hother
              simp only [Function.update_of_ne hne]
              exact h.known other hother
          case suspended => exact h.suspended

theorem noteResponse_of_none (hresponse : response? env raw = none) :
    client.noteResponse env raw = client := by
  simp [AppServerClient.noteResponse, hresponse]

theorem Linked.withTasks (h : Linked client) (tasks : List (RequestTask Value)) :
    Linked { client with tasks := tasks } := ⟨h.call, h.fresh, h.known, h.suspended⟩

theorem Linked.putNotification (h : Linked client) (note : Notification) :
    Linked (client.putNotification note) := ⟨h.call, h.fresh, h.known, h.suspended⟩

/-- The first response to a call completes it. -/
theorem Linked.answer (h : Linked client) {number : Nat} {call : Call} {answer : Answer}
    (hcall : client.calls number = some call) (hfirst : client.firstAnswers number = none) :
    Linked ({ client with
      firstAnswers := Function.update client.firstAnswers number (some answer) }.setCall number
        { call with future := .answered answer }) := by
  constructor
  case call =>
      intro other known hknown
      by_cases heq : other = number
      · subst heq
        simp only [AppServerClient.setCall, Function.update_self, Option.some.injEq] at hknown
        subst hknown
        refine ⟨fun hpending => ?_, fun stored hstored => ?_, fun stored hphase => ?_⟩
        · cases hpending
        · cases hstored
          simp [AppServerClient.setCall]
        · have hold := (h.call other call hcall).outcome stored hphase
          rw [hfirst] at hold
          cases hold
      · simp only [AppServerClient.setCall, Function.update_of_ne heq] at hknown
        have hlinked := h.call other known hknown
        refine ⟨fun hpending => ?_, fun stored hstored => ?_, fun stored hphase => ?_⟩
        · simpa [AppServerClient.setCall, Function.update_of_ne heq] using hlinked.entered hpending
        · simpa [AppServerClient.setCall, Function.update_of_ne heq]
            using hlinked.answered stored hstored
        · simpa [AppServerClient.setCall, Function.update_of_ne heq]
            using hlinked.outcome stored hphase
  case fresh =>
      intro other hother
      have hne : other ≠ number := by
        rintro rfl
        rw [h.fresh other hother] at hcall
        cases hcall
      simpa [AppServerClient.setCall, Function.update_of_ne hne] using h.fresh other hother
  case known =>
      intro other hother
      have hne : other ≠ number := by
        rintro rfl
        simp [AppServerClient.setCall] at hother
      simp only [AppServerClient.setCall, Function.update_of_ne hne] at hother ⊢
      exact h.known other hother
  case suspended =>
      intro other hother
      obtain ⟨known, hknown, hphase⟩ := h.suspended other hother
      by_cases heq : other = number
      · subst heq
        cases hcall.symm.trans hknown
        refine ⟨{ call with future := .answered answer }, ?_, hphase⟩
        simp [AppServerClient.setCall]
      · exact ⟨known, by simpa [AppServerClient.setCall, Function.update_of_ne heq] using hknown,
          hphase⟩

/-- Frames that are no responses for a call leave the calls as they are; a response completes the
call whose id it bears. -/
theorem Linked.receive (h : Linked client) (hformed : formedResponse env raw = true)
    (hreceive : (client.noteResponse env raw).receive env raw = .ok next) : Linked next := by
  obtain ⟨answers, hnoted⟩ := noteResponse_eq env client raw
  rcases receive_cases hreceive with ⟨hmessage, rfl⟩ | ⟨message, hmessage, hdispatch⟩
  · refine h.note fun id answer call hresponse _ => ?_
    obtain ⟨fields, _, hsome, _⟩ := response?_eq_some hresponse
    cases hmessage.symm.trans hsome
  obtain ⟨fields, rfl, hcase⟩ := dispatch_cases hdispatch
  have hnone : (idOf fields = none ∨ ∃ method, fields.lookup "method" = some method) →
      client.noteResponse env raw = client := by
    intro hother
    refine noteResponse_of_none (Option.eq_none_iff_forall_ne_some.mpr ?_)
    rintro ⟨id, answer⟩ hresponse
    obtain ⟨other, value, hsome, _, hid, hmethod, _⟩ := response?_eq_some hresponse
    cases hmessage.symm.trans hsome
    rcases hother with hid' | ⟨method, hmethod'⟩
    · cases hid'.symm.trans hid
    · cases hmethod'.symm.trans hmethod
  cases hcase with
  | request hid hmethod =>
      rw [hnone (.inr ⟨_, hmethod⟩)]
      exact h.withTasks _
  | notification hid hmethod hname =>
      rw [hnone (.inl hid)]
      exact h.putNotification _
  | unknown hid hmethod =>
      rw [hnone (.inl hid)]
      exact h
  | unawaited hid hmethod hawaited =>
      refine h.note fun number answer call hresponse hcall => ?_
      obtain ⟨other, value, hsome, hwell, hid', _, _, rfl⟩ := response?_eq_some hresponse
      cases hmessage.symm.trans hsome
      cases hid.symm.trans hid'
      have hint : value.isInt = true ∧ 0 ≤ value.num := by
        simp only [wellFormedMessage, hid, hmethod, Bool.and_eq_true, decide_eq_true_eq] at hwell
        exact hwell.1
      by_contra hpending
      simp only [Bool.not_eq_false] at hpending
      have hentered := ((h.call _ call hcall).entered hpending).1
      have hsome := awaited_of_pending hint.1 hint.2 hentered hcall hpending
      have hsame : (client.noteResponse env raw).awaited (.number value) =
          client.awaited (.number value) := by
        rw [hnoted]
        rfl
      rw [hsame, hsome] at hawaited
      cases hawaited
  | @answered id number call answer hid hmethod hawaited hanswer =>
      obtain ⟨value, rfl, hresponse⟩ := response?_of_answered hmessage hid hmethod hformed hanswer
      have hsame : (client.noteResponse env raw).awaited (.number value) =
          client.awaited (.number value) := by
        rw [hnoted]
        rfl
      rw [hsame] at hawaited
      obtain ⟨hpending, hcall, hfuture⟩ := awaited_eq_some hawaited
      have hnumber : value.num.toNat = number := by
        rw [← pendingId?_number hpending]
        simp
      rw [hnumber] at hresponse
      have hfirst := ((h.call number call hcall).entered hfuture).2
      have hanswers : client.noteResponse env raw = { client with
          firstAnswers := Function.update client.firstAnswers number (some answer) } := by
        simp [AppServerClient.noteResponse, hresponse, hcall, hfirst]
      rw [hanswers]
      exact h.answer hcall hfirst

end

/-! ### Steps of the calls -/

/-- A send that fails finds its entry gone, and a response of the server that has a socket to go to
can be encoded. -/
def orderly (env : Env Value) (client : AppServerClient Value) : Action Value → Bool
  | .frame raw => formedResponse env raw
  | .sendFails id _ => id ∉ client.pending
  | .serve index =>
      (client.tasks[index]?).all fun task => !task.socketOpen || task.method.hashable
  | .respond index =>
      (client.tasks[index]?).all fun task =>
        match task.phase with
        | .responding response => !task.socketOpen || (env.dumps response).isSome
        | _ => true
  | _ => true

theorem suspended_of_waiting {phase : CallPhase} (h : phase.isWaiting = true) :
    phase.suspended = true := by
  simp [CallPhase.suspended, h]

theorem Linked.done (h : Linked client) {id : Nat} {call : Call} {outcome : Outcome}
    (hcall : client.calls id = some call) (houtcome : call.future.outcome? = some outcome) :
    Linked (client.leave id call outcome) := by
  have hlinked := h.call id call hcall
  refine h.leave (by simp [hcall]) ?_ hlinked.answered fun answer heq => ?_
  · cases hfuture : call.future <;> simp [hfuture, RpcFuture.outcome?] at houtcome <;> rfl
  · refine hlinked.answered answer ?_
    subst heq
    cases hfuture : call.future <;> simp [hfuture, RpcFuture.outcome?] at houtcome
    rw [houtcome]

theorem Linked.givenUp (h : Linked client) {id : Nat} {call : Call} {outcome : Outcome}
    (hcall : client.calls id = some call) (houtcome : ∀ answer, outcome ≠ .answered answer) :
    Linked (client.leave id (call.settle .cancelled) outcome) :=
  h.leave (by simp [hcall]) (isPending_settle rfl call)
    (fun answer hanswer => (h.call id call hcall).answered answer
      (settle_answered (by simp) hanswer))
    fun answer heq => absurd heq (houtcome answer)

theorem Linked.woken (h : Linked client) : Linked client.dropSocket.wakeNotifications :=
  ⟨h.call, h.fresh, h.known, h.suspended⟩

theorem Linked.readerEnds (h : Linked client) : Linked client.readerEnds := h.woken.failPending _

/-- A frame that ends the reader is no response for a call. -/
theorem noteResponse_of_crash {raw : Frame} {error : ReaderError}
    (hreceive : (client.noteResponse env raw).receive env raw = .error error) :
    client.noteResponse env raw = client := by
  refine noteResponse_of_none (Option.eq_none_iff_forall_ne_some.mpr ?_)
  rintro ⟨id, answer⟩ hresponse
  obtain ⟨fields, value, hmessage, hwell, hid, hmethod, hanswer, _⟩ := response?_eq_some hresponse
  obtain ⟨text, hdecode, hloads⟩ := Option.bind_eq_some_iff.mp hmessage
  have hall := (ofMessage_object fields).mp ⟨answer, hanswer⟩
  have hmet : FrameMet env (client.noteResponse env raw) raw := by
    refine frameMet_iff.mpr ?_
    simp [toleratedFrame, hdecode, hloads, toleratedMessage, hid, hmethod, hall, Json.hashable,
      Json.isNumber]
  obtain ⟨next, hnext, _⟩ := hmet
  cases hnext.symm.trans hreceive

theorem Linked.step {action : Action Value} (h : Linked client)
    (horderly : orderly env client action = true) (hstep : step env client action = some next) :
    Linked next := by
  cases step_cases hstep with
  | registered => exact h.register
  | sent hcall hphase =>
      have hlinked := h.call _ _ hcall
      refine h.setCall hcall ⟨hlinked.entered, hlinked.answered, fun answer heq => ?_⟩ fun _ => rfl
      cases heq
  | @sendFailed id call cancelled hcall hphase =>
      have hlinked := h.call _ _ hcall
      have hgone : id ∉ client.pending := by simpa [orderly] using horderly
      refine h.setCall hcall ⟨hlinked.entered, hlinked.answered, fun answer heq => ?_⟩
        fun hmem => absurd hmem hgone
      cases cancelled <;> cases heq
  | resumed hcall _ hfuture => exact h.done hcall hfuture
  | timedOut hcall _ => exact h.givenUp hcall (by simp)
  | cancelled hcall _ => exact h.givenUp hcall (by simp)
  | received _ _ hreceive => exact h.receive horderly hreceive
  | crashed _ _ hreceive =>
      rw [noteResponse_of_crash hreceive]
      exact ⟨h.readerEnds.call, h.readerEnds.fresh, h.readerEnds.known, h.readerEnds.suspended⟩
  | lost => exact h.readerEnds
  | closed =>
      have hfailed := h.woken.failPending "AppServerClient closed"
      exact ⟨hfailed.call, hfailed.fresh, hfailed.known, hfailed.suspended⟩
  | _ => exact ⟨h.call, h.fresh, h.known, h.suspended⟩

/-! ### Calls that have ended -/

/-- The call has ended with the outcome. -/
def EndedWith (client : AppServerClient Value) (id : Nat) (outcome : Outcome) : Prop :=
  id < client.nextId ∧ ∃ call, client.calls id = some call ∧ call.phase = .ended outcome

section

variable {id : Nat} {outcome : Outcome}

theorem EndedWith.setCall (h : EndedWith client id outcome) {other : Nat} {call changed : Call}
    (hcall : client.calls other = some call)
    (hphase : ∀ outcome, call.phase = .ended outcome → changed.phase = .ended outcome) :
    EndedWith (client.setCall other changed) id outcome := by
  obtain ⟨hid, known, hknown, hended⟩ := h
  refine ⟨hid, ?_⟩
  by_cases heq : id = other
  · subst heq
    cases hcall.symm.trans hknown
    exact ⟨changed, by simp [AppServerClient.setCall], hphase outcome hended⟩
  · refine ⟨known, ?_, hended⟩
    simpa [AppServerClient.setCall, Function.update_of_ne heq] using hknown

theorem EndedWith.failPending (h : EndedWith client id outcome) (text : String) :
    EndedWith (client.failPending text) id outcome := by
  obtain ⟨hid, known, hknown, hended⟩ := h
  refine ⟨hid, ?_⟩
  simp only [AppServerClient.failPending]
  split
  · exact ⟨known.settle (.connectionError text), by simp [hknown], by simpa using hended⟩
  · exact ⟨known, hknown, hended⟩

/-- Who is suspended has not ended. -/
theorem not_ended {phase : CallPhase} (h : phase.suspended = true) : phase ≠ .ended outcome := by
  rintro rfl
  cases h

theorem EndedWith.step {action : Action Value} (h : EndedWith client id outcome)
    (hstep : step env client action = some next) : EndedWith next id outcome := by
  have hsending : ∀ {phase : CallPhase}, phase.isSending = true → phase.suspended = true := by
    intro phase hphase
    simp [CallPhase.suspended, hphase]
  cases step_cases hstep with
  | registered =>
      obtain ⟨hid, known, hknown, hended⟩ := h
      refine ⟨Nat.lt_succ_of_lt hid, known, ?_, hended⟩
      simpa [AppServerClient.register, AppServerClient.setCall, Function.update_of_ne hid.ne]
        using hknown
  | sent hcall hphase =>
      exact h.setCall hcall fun _ hended => absurd hended (not_ended (hsending hphase))
  | sendFailed hcall hphase =>
      exact h.setCall hcall fun _ hended => absurd hended (not_ended (hsending hphase))
  | resumed hcall hphase _ =>
      exact h.setCall hcall fun _ hended =>
        absurd hended (not_ended (suspended_of_waiting hphase))
  | timedOut hcall hphase =>
      exact h.setCall hcall fun _ hended =>
        absurd hended (not_ended (suspended_of_waiting hphase))
  | cancelled hcall hphase =>
      exact h.setCall hcall fun _ hended =>
        absurd hended (not_ended (suspended_of_waiting hphase))
  | @received raw _ _ _ hreceive =>
      obtain ⟨answers, hnoted⟩ := noteResponse_eq env client raw
      have hsame : EndedWith (client.noteResponse env raw) id outcome := by
        rw [hnoted]
        exact h
      cases receive_oneChange hreceive with
      | completed number call answer hpending hcall hfuture =>
          exact hsame.setCall hcall fun _ hended => hended
      | unchanged | enqueued | spawned => exact hsame
  | @crashed raw _ _ _ _ =>
      obtain ⟨answers, hnoted⟩ := noteResponse_eq env client raw
      have hsame : EndedWith (client.noteResponse env raw).dropSocket.wakeNotifications id outcome := by
        rw [hnoted]
        exact h
      exact hsame.failPending _
  | lost =>
      have hsame : EndedWith client.dropSocket.wakeNotifications id outcome := h
      exact hsame.failPending _
  | closed =>
      have hsame : EndedWith client.dropSocket.wakeNotifications id outcome := h
      exact hsame.failPending _
  | _ => exact h

end

/-! ### The tasks -/

/-- One response is sent by a task whose socket stays open, and none by the others or one. -/
structure TaskServed (connected : Bool) (task : RequestTask Value) : Prop where
  alive : task.phase ≠ .ended → task.socketOpen = true → connected = true
  response : ∀ response, task.phase = .responding response → response.id = task.id
  unsent : task.phase ≠ .ended → task.sent = []
  sent : task.phase = .ended → task.socketOpen = true → task.sent ≠ []
  atMostOne : task.sent = [] ∨ ∃ response, task.sent = [response] ∧ response.id = task.id

def Served (client : AppServerClient Value) : Prop :=
  ∀ task ∈ client.tasks, TaskServed client.connected task

theorem mem_modify {α : Type} {items : List α} {index : Nat} {change : α → α} {item : α}
    (hitem : item ∈ items.modify index change) :
    item ∈ items ∨ ∃ old, items[index]? = some old ∧ item = change old := by
  obtain ⟨position, hposition⟩ := List.mem_iff_getElem?.mp hitem
  rw [List.getElem?_modify] at hposition
  obtain ⟨old, hold, hchanged⟩ := Option.map_eq_some_iff.mp hposition
  by_cases heq : index = position
  · subst heq
    simp only [if_true] at hchanged
    exact .inr ⟨old, hold, hchanged.symm⟩
  · simp only [heq, if_false] at hchanged
    exact .inl (List.mem_iff_getElem?.mpr ⟨position, hchanged ▸ hold⟩)

theorem Served.modifyTask (h : Served client) {index : Nat}
    {change : RequestTask Value → RequestTask Value}
    (hchange : ∀ task, client.tasks[index]? = some task → TaskServed client.connected task →
      TaskServed client.connected (change task)) : Served (client.modifyTask index change) := by
  intro task htask
  rcases mem_modify htask with hold | ⟨old, hold, rfl⟩
  · exact h task hold
  · exact hchange old hold (h old (List.mem_of_getElem? hold))

theorem Served.dropSocket (h : Served client) : Served client.dropSocket := by
  intro task htask
  obtain ⟨old, hold, rfl⟩ := List.mem_map.mp htask
  have hserved := h old hold
  split
  case h_1 hphase =>
      exact ⟨fun hne => absurd hphase hne, hserved.response, hserved.unsent, hserved.sent,
        hserved.atMostOne⟩
  case h_2 =>
      exact ⟨fun _ hopen => absurd hopen Bool.false_ne_true, hserved.response, hserved.unsent,
        fun _ hopen => absurd hopen Bool.false_ne_true, hserved.atMostOne⟩

theorem TaskServed.serve {connected : Bool} {task : RequestTask Value}
    (h : TaskServed connected task) (hphase : task.phase = .spawned)
    (hhash : (!task.socketOpen || task.method.hashable) = true) :
    TaskServed connected (AppServerClient.serve env task) := by
  have hphase' : task.phase ≠ .ended := by simp [hphase]
  unfold AppServerClient.serve
  split
  case isTrue hunhashable =>
      have hclosed : task.socketOpen = false := by
        cases hopen : task.socketOpen with
        | false => rfl
        | true => simp_all
      refine ⟨fun hne => absurd rfl hne, fun _ hresponse => ?_, fun hne => absurd rfl hne,
        fun _ hopen => ?_, h.atMostOne⟩
      · cases hresponse
      · exact absurd hopen (by simp [hclosed])
  case isFalse =>
      split
      case isTrue =>
          refine ⟨fun _ => h.alive hphase', fun _ hresponse => ?_, fun _ => h.unsent hphase',
            fun hended => ?_, h.atMostOne⟩
          · cases hresponse
          · cases hended
      case isFalse =>
          refine ⟨fun _ => h.alive hphase', fun _ hresponse => ?_, fun _ => h.unsent hphase',
            fun hended => ?_, h.atMostOne⟩
          · cases hresponse
            rfl
          · cases hended

/-- The handler is through. -/
theorem TaskServed.responding {connected : Bool} {task : RequestTask Value}
    (h : TaskServed connected task) (hphase : task.phase = .handling) (body : Body Value) :
    TaskServed connected { task with phase := .responding ⟨task.id, body⟩ } := by
  have hphase' : task.phase ≠ .ended := by simp [hphase]
  refine ⟨fun _ => h.alive hphase', fun _ hresponse => ?_, fun _ => h.unsent hphase',
    fun hended => ?_, h.atMostOne⟩
  · cases hresponse
    rfl
  · cases hended

theorem TaskServed.respond {connected : Bool} {task : RequestTask Value} {response : Response Value}
    (h : TaskServed connected task) (hphase : task.phase = .responding response)
    (hdumps : (!task.socketOpen || (env.dumps response).isSome) = true) :
    TaskServed connected (AppServerClient.respond env connected response task) := by
  have hphase' : task.phase ≠ .ended := by simp [hphase]
  have hunsent := h.unsent hphase'
  unfold AppServerClient.respond
  split
  case isTrue =>
      refine ⟨fun hne => absurd rfl hne, fun _ hresponse => ?_, fun hne => absurd rfl hne,
        fun _ _ => by simp, .inr ⟨response, by simp [hunsent], h.response response hphase⟩⟩
      cases hresponse
  case isFalse hunsendable =>
      refine ⟨fun hne => absurd rfl hne, fun _ hresponse => ?_, fun hne => absurd rfl hne,
        fun _ hopen => ?_, h.atMostOne⟩
      · cases hresponse
      · have hconnected := h.alive hphase' hopen
        simp only [hconnected, Bool.true_and] at hunsendable
        have hopen' : task.socketOpen = true := hopen
        simp only [hopen', Bool.not_true, Bool.false_or] at hdumps
        exact absurd hdumps hunsendable

theorem TaskServed.closed {connected : Bool} {task : RequestTask Value}
    (h : TaskServed connected task) :
    TaskServed connected { task with phase := .ended, socketOpen := false } := by
  refine ⟨fun hne => absurd rfl hne, fun _ hresponse => ?_, fun hne => absurd rfl hne,
    fun _ hopen => ?_, h.atMostOne⟩
  · cases hresponse
  · cases hopen

theorem Served.step {action : Action Value} (h : Served client)
    (horderly : orderly env client action = true) (hstep : step env client action = some next) :
    Served next := by
  cases step_cases hstep with
  | connected =>
      intro task htask
      have hserved := h task htask
      exact ⟨fun _ _ => rfl, hserved.response, hserved.unsent, hserved.sent, hserved.atMostOne⟩
  | @received raw _ hconnected _ hreceive =>
      obtain ⟨answers, hnoted⟩ := noteResponse_eq env client raw
      rw [hnoted] at hreceive
      rcases receive_cases hreceive with ⟨_, rfl⟩ | ⟨message, _, hdispatch⟩
      · exact h
      · obtain ⟨fields, rfl, hcase⟩ := dispatch_cases hdispatch
        cases hcase with
        | answered | unawaited | notification | unknown => exact h
        | request =>
            intro task htask
            rcases List.mem_append.mp htask with hold | hnew
            · exact h task hold
            · rw [List.mem_singleton.mp hnew]
              refine ⟨fun _ _ => hconnected, fun _ hresponse => ?_, fun _ => rfl,
                fun hended => ?_, .inl rfl⟩
              · cases hresponse
              · cases hended
  | @crashed raw _ _ _ _ =>
      obtain ⟨answers, hnoted⟩ := noteResponse_eq env client raw
      rw [hnoted]
      exact h.dropSocket
  | lost => exact h.dropSocket
  | closed => exact h.dropSocket
  | served htask hphase =>
      refine h.modifyTask fun task hfound hserved => ?_
      cases htask.symm.trans hfound
      refine hserved.serve hphase ?_
      simpa [orderly, htask] using horderly
  | returned htask hphase =>
      refine h.modifyTask fun task hfound hserved => ?_
      cases htask.symm.trans hfound
      exact hserved.responding hphase _
  | raised htask hphase =>
      refine h.modifyTask fun task hfound hserved => ?_
      cases htask.symm.trans hfound
      exact hserved.responding hphase _
  | responded htask hphase =>
      refine h.modifyTask fun task hfound hserved => ?_
      cases htask.symm.trans hfound
      refine hserved.respond hphase ?_
      simpa [orderly, htask, hphase] using horderly
  | respondFailed => exact h.modifyTask fun task _ hserved => hserved.closed
  | taskCancelled => exact h.modifyTask fun task _ hserved => hserved.closed
  | _ => exact h

/-! ### The correlation -/

/-- A call ends with an answer only if that is the first one to its id. When no call is suspended
there are no entries. A task that is through, and has had its socket all the time, has sent one
response, which bears the id of its request; no task sends more. -/
structure Correlated (client : AppServerClient Value) : Prop where
  own : ∀ id call answer, client.calls id = some call → call.phase = .ended (.answered answer) →
    client.firstAnswers id = some answer
  noEntries : (∀ id call, client.calls id = some call → call.phase.suspended = false) →
    client.pending = []
  responded : ∀ task ∈ client.tasks, task.phase = .ended → task.socketOpen = true →
    ∃ response, task.sent = [response] ∧ response.id = task.id
  atMostOne : ∀ task ∈ client.tasks, task.sent = [] ∨
    ∃ response, task.sent = [response] ∧ response.id = task.id

theorem correlated (hlinked : Linked client) (hserved : Served client) : Correlated client where
  own := fun id call answer hcall hphase => (hlinked.call id call hcall).outcome answer hphase
  noEntries := fun hnone => by
    refine List.eq_nil_iff_forall_not_mem.mpr fun id hid => ?_
    obtain ⟨call, hcall, hsuspended⟩ := hlinked.suspended id hid
    simp [hnone id call hcall] at hsuspended
  responded := fun task htask hphase hopen =>
    (hserved task htask).atMostOne.resolve_left ((hserved task htask).sent hphase hopen)
  atMostOne := fun task htask => (hserved task htask).atMostOne

/-- **Requests and responses.** In every run whose failing sends find their entry gone, and in which
the responses to the server can be encoded, the client correlates. A call that has ended stays as it
has ended, and one that waits can be ended by its timeout. -/
theorem requests_correlated {queueMax : Nat} {client : AppServerClient Value}
    (hreach : Reach (step env) (fun client action => orderly env client action = true)
      (start queueMax) client) :
    Correlated client ∧
      (∀ later id outcome, Reach (step env) (fun _ _ => True) client later →
        (client.calls id).map Call.phase = some (.ended outcome) →
        (later.calls id).map Call.phase = some (.ended outcome)) ∧
      ∀ id call, client.calls id = some call → call.phase.isWaiting = true →
        ∃ next, step env client (.timeOut id) = some next ∧
          (next.calls id).map Call.phase = some (.ended .timeout) := by
  have hinvariant : Linked client ∧ Served client := by
    refine hreach.invariant (fun client => Linked client ∧ Served client)
      ⟨linked_start queueMax, fun task htask => by cases htask⟩ ?_
    rintro before action after ⟨hlinked, hserved⟩ horderly hstep
    exact ⟨hlinked.step horderly hstep, hserved.step horderly hstep⟩
  obtain ⟨hlinked, hserved⟩ := hinvariant
  refine ⟨correlated hlinked hserved, fun later id outcome hlater hended => ?_,
    fun id call hcall hphase => ?_⟩
  · obtain ⟨call, hcall, hphase⟩ := Option.map_eq_some_iff.mp hended
    have hid : id < client.nextId := by
      by_contra hge
      rw [hlinked.fresh id (by omega)] at hcall
      cases hcall
    have hstays : EndedWith later id outcome :=
      hlater.invariant (EndedWith · id outcome) ⟨hid, call, hcall, hphase⟩
        fun _ _ _ hbefore _ hstep => hbefore.step hstep
    obtain ⟨_, after, hafter, hphaseAfter⟩ := hstays
    simp [hafter, hphaseAfter]
  · refine ⟨client.leave id (call.settle .cancelled) .timeout, ?_, ?_⟩
    · simp [step, hcall, hphase]
    · simp [AppServerClient.leave, AppServerClient.setCall]

/-- A sidecar that answers the first request, and asks for something there is no handler for. -/
def echoEnv : Env Unit where
  loads := fun text =>
    if text = "response" then some (.object [("id", .number 1), ("result", .null)])
    else some (.object [("id", .string "a"), ("method", .string "ask")])
  dumps := fun _ => some ""
  str := fun _ => ""
  handlers := fun _ => false

def echoRun : List (Action Unit) :=
  [.connect, .request, .sent 1, .frame (.text "response"), .resume 1, .frame (.text "ask"),
    .serve 0, .respond 0, .lose]

theorem requests_correlated_executed :
    ∃ client, run (step echoEnv) (start 1) echoRun = some client ∧ Correlated client := by
  have hdefined : (run (step echoEnv) (start 1) echoRun).isSome = true := by decide +kernel
  obtain ⟨client, hrun⟩ := Option.isSome_iff_exists.mp hdefined
  exact ⟨client, hrun,
    (requests_correlated (Transition.reach_of_run hrun (by decide +kernel))).1⟩

/-- The send of the only request fails, and its entry stays. -/
theorem entry_left_behind :
    (run (step echoEnv) (start 1) [.connect, .request, .sendFails 1 false]).any
      (fun client => client.pending = [1] &&
        (client.calls 1).all fun call => !call.phase.suspended) = true := by
  decide +kernel

end CodexServer.Transport
