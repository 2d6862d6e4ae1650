import CodexServer.Proof.Transport

/-!
# Frames the reader survives

What `_dispatch` does with a message depends on its shape alone, but for a response, which is looked
up among the pending requests. From this follows which frames the reader survives, and that these
change one thing at most.
-/

namespace CodexServer.Transport

open Transition (run RunAllowed)

variable {Value : Type} {env : Env Value} {client next : AppServerClient Value}

/-! ### What `_dispatch` does -/

theorem hasId_object (fields : List (String × Json)) :
    AppServerClient.hasId (.object fields) = .ok (idOf fields).isSome := by
  cases hid : fields.lookup "id" with
  | none =>
      simp [AppServerClient.hasId, Json.contains, idOf, hid]
      rfl
  | some id =>
      cases id <;> simp [AppServerClient.hasId, Json.contains, Json.index, Json.isNull, idOf, hid] <;>
        rfl

theorem index_of_idOf {fields : List (String × Json)} {id : Json} (hid : idOf fields = some id) :
    (Json.object fields).index "id" = .ok id := by
  have hlookup : fields.lookup "id" = some id := by
    unfold idOf at hid
    exact (Option.filter_eq_some_iff.mp hid).1
  simp [Json.index, hlookup]

variable {fields : List (String × Json)}

theorem dispatch_request {id method : Json} (hid : idOf fields = some id)
    (hmethod : fields.lookup "method" = some method) :
    client.dispatch (.object fields) = .ok { client with
      tasks := client.tasks ++
        [{ id, method, params := ((fields.lookup "params").bind Json.object?).getD [] }] } := by
  simp only [AppServerClient.dispatch, hasId_object, hid, Json.contains, hmethod]
  change client.spawnRequestHandler (.object fields) = _
  have hindex : (Json.object fields).index "method" = .ok method := by
    simp [Json.index, hmethod]
  simp only [AppServerClient.spawnRequestHandler, index_of_idOf hid, hindex]
  rfl

theorem dispatch_response {id : Json} (hid : idOf fields = some id)
    (hmethod : fields.lookup "method" = none) :
    client.dispatch (.object fields) = client.resolveResponse (.object fields) := by
  simp only [AppServerClient.dispatch, hasId_object, hid, Json.contains, hmethod]
  rfl

theorem dispatch_notification {method : Json} (hid : idOf fields = none)
    (hmethod : fields.lookup "method" = some method) :
    client.dispatch (.object fields) =
      match method.string? with
      | some name =>
          .ok (client.putNotification (Notification.ofFrame name (fields.lookup "params")))
      | none => .error .validationError := by
  simp only [AppServerClient.dispatch, hasId_object, hid, Json.contains, hmethod]
  simp only [AppServerClient.enqueueNotification, Json.get, Json.index, hmethod]
  cases method <;> rfl

theorem dispatch_unknown (hid : idOf fields = none) (hmethod : fields.lookup "method" = none) :
    client.dispatch (.object fields) = .ok client := by
  simp only [AppServerClient.dispatch, hasId_object, hid, Json.contains, hmethod]
  rfl

/-- A message that is no object has no keys, and no test before is passed by all of them. -/
theorem dispatch_of_not_object (client : AppServerClient Value) {message : Json}
    (hmessage : message.object? = none) : ∃ error, client.dispatch message = .error error := by
  cases message with
  | object fields => cases hmessage
  | null => exact ⟨.typeError, rfl⟩
  | bool value => exact ⟨.typeError, rfl⟩
  | number value => exact ⟨.typeError, rfl⟩
  | string value =>
      simp only [AppServerClient.dispatch, AppServerClient.hasId, Json.contains, Json.index]
      cases value.toList.tails.any "id".toList.isPrefixOf
      · cases value.toList.tails.any "method".toList.isPrefixOf
        · exact ⟨.attributeError, rfl⟩
        · exact ⟨.attributeError, rfl⟩
      · exact ⟨.typeError, rfl⟩
  | array items =>
      simp only [AppServerClient.dispatch, AppServerClient.hasId, Json.contains, Json.index]
      cases items.any fun item => item.string? = some "id"
      · cases items.any fun item => item.string? = some "method"
        · exact ⟨.attributeError, rfl⟩
        · exact ⟨.attributeError, rfl⟩
      · exact ⟨.typeError, rfl⟩

/-! ### Responses -/

/-- The call that a response with this id completes. -/
def AppServerClient.awaited (client : AppServerClient Value) (id : Json) : Option (Nat × Call) :=
  match client.pendingId? id with
  | .ok (some number) =>
      (client.calls number).bind fun call =>
        if call.future.isPending then some (number, call) else none
  | _ => none

theorem pendingId?_error {id : Json} :
    (∃ error, client.pendingId? id = .error error) ↔ id.hashable = false := by
  cases id <;> simp [AppServerClient.pendingId?, Json.hashable]

theorem ofMessage_object (fields : List (String × Json)) :
    (∃ answer, Answer.ofMessage (.object fields) = .ok answer) ↔
      (fields.lookup "error").all (fun error => error.object?.isSome) = true := by
  cases herror : fields.lookup "error" with
  | none =>
      simp only [Answer.ofMessage, Json.contains, herror, Option.all_none, iff_true]
      exact ⟨_, rfl⟩
  | some error =>
      have hindex : (Json.object fields).index "error" = .ok error := by
        simp [Json.index, herror]
      simp only [Answer.ofMessage, Json.contains, herror, hindex, Option.all_some]
      cases error with
      | object err => exact ⟨fun _ => rfl, fun _ => ⟨_, rfl⟩⟩
      | null | bool _ | number _ | string _ | array _ =>
          refine ⟨fun hanswer => ?_, fun hnone => by cases hnone⟩
          obtain ⟨answer, hanswer⟩ := hanswer
          cases hanswer

theorem resolveResponse_of_unhashable (client : AppServerClient Value) {id : Json}
    (hid : idOf fields = some id) (hhash : id.hashable = false) :
    ∃ error, client.resolveResponse (.object fields) = .error error := by
  obtain ⟨error, herror⟩ := pendingId?_error.mpr hhash
  refine ⟨error, ?_⟩
  simp only [AppServerClient.resolveResponse, index_of_idOf hid]
  change (client.pendingId? id >>= _) = _
  rw [herror]
  rfl

theorem resolveResponse_of_known {id : Json} {number : Nat} {call : Call}
    (hid : idOf fields = some id) (hpending : client.pendingId? id = .ok (some number))
    (hcall : client.calls number = some call) :
    client.resolveResponse (.object fields) =
      if call.future.isPending then
        (Answer.ofMessage (.object fields)).map fun answer =>
          client.setCall number { call with future := .answered answer }
      else .ok client := by
  simp only [AppServerClient.resolveResponse, index_of_idOf hid, bind, Except.bind, hpending, hcall]
  split
  · cases Answer.ofMessage (.object fields) <;> rfl
  · rfl

/-- Nobody waits for the response. -/
theorem resolveResponse_of_not_awaited {id : Json} (hid : idOf fields = some id)
    (hhash : id.hashable = true) (hawaited : client.awaited id = none) :
    client.resolveResponse (.object fields) = .ok client := by
  cases hpending : client.pendingId? id with
  | error error => simp [pendingId?_error.mp ⟨error, hpending⟩] at hhash
  | ok found =>
      cases found with
      | none =>
          simp only [AppServerClient.resolveResponse, index_of_idOf hid, bind, Except.bind, hpending]
          rfl
      | some number =>
          cases hcall : client.calls number with
          | none =>
              simp only [AppServerClient.resolveResponse, index_of_idOf hid, bind, Except.bind,
                hpending, hcall]
              rfl
          | some call =>
              have hdone : call.future.isPending = false := by
                simpa [AppServerClient.awaited, hpending, hcall] using hawaited
              rw [resolveResponse_of_known hid hpending hcall, hdone, if_neg Bool.false_ne_true]

theorem awaited_eq_some {id : Json} {number : Nat} {call : Call}
    (hawaited : client.awaited id = some (number, call)) :
    client.pendingId? id = .ok (some number) ∧ client.calls number = some call ∧
      call.future.isPending = true := by
  unfold AppServerClient.awaited at hawaited
  split at hawaited
  case h_2 => cases hawaited
  case h_1 found hpending =>
      rw [Option.bind_eq_some_iff] at hawaited
      obtain ⟨known, hcall, hknown⟩ := hawaited
      split at hknown
      case isFalse => cases hknown
      case isTrue hfuture =>
          cases hknown
          exact ⟨hpending, hcall, hfuture⟩

theorem resolveResponse_of_awaited {id : Json} {number : Nat} {call : Call}
    (hid : idOf fields = some id) (hawaited : client.awaited id = some (number, call)) :
    client.resolveResponse (.object fields) =
      (Answer.ofMessage (.object fields)).map fun answer =>
        client.setCall number { call with future := .answered answer } := by
  obtain ⟨hpending, hcall, hfuture⟩ := awaited_eq_some hawaited
  rw [resolveResponse_of_known hid hpending hcall, if_pos hfuture]

/-! ### What the reader survives -/

def Json.isNumber : Json → Bool
  | .number _ => true
  | _ => false

/-- A message that the client takes as it should: a response can be looked up, and when a call waits
for it, has a number for an id and an error that is an object if any. -/
def toleratedMessage (client : AppServerClient Value) : Json → Bool
  | .object fields =>
      match idOf fields, fields.lookup "method" with
      | some _, some _ | none, none => true
      | some id, none => id.hashable && ((client.awaited id).isNone ||
          Json.isNumber id && (fields.lookup "error").all fun error => error.object?.isSome)
      | none, some method => method.string?.isSome
  | _ => false

def toleratedFrame (env : Env Value) (client : AppServerClient Value) (raw : Frame) : Bool :=
  match raw.decode with
  | none => false
  | some text => (env.loads text).all (toleratedMessage client)

/-- One request is completed, one notification put into the queue or one handler spawned, or nothing
happens at all. -/
inductive OneChange (client : AppServerClient Value) : AppServerClient Value → Prop
  | unchanged : OneChange client client
  | completed (id : Nat) (call : Call) (answer : Answer) (hpending : id ∈ client.pending)
      (hcall : client.calls id = some call) (hfuture : call.future.isPending = true) :
      OneChange client (client.setCall id { call with future := .answered answer })
  | enqueued (note : Notification) : OneChange client (client.putNotification note)
  | spawned (task : RequestTask Value) :
      OneChange client { client with tasks := client.tasks ++ [task] }

theorem pendingId?_mem {id : Json} {number : Nat}
    (hpending : client.pendingId? id = .ok (some number)) : number ∈ client.pending := by
  cases id with
  | null | string _ | array _ | object _ => cases hpending
  | bool value | number value => exact List.mem_of_find?_eq_some (Except.ok.inj hpending)

theorem pendingId?_number {value : ℚ} {number : Nat}
    (hpending : client.pendingId? (.number value) = .ok (some number)) : (number : ℚ) = value := by
  simpa using List.find?_some (Except.ok.inj hpending)

/-- What a message may lead to that is dispatched. -/
inductive Dispatched (client : AppServerClient Value) (fields : List (String × Json)) :
    AppServerClient Value → Prop
  | request {id method : Json} (hid : idOf fields = some id)
      (hmethod : fields.lookup "method" = some method) :
      Dispatched client fields { client with
        tasks := client.tasks ++
          [{ id, method, params := ((fields.lookup "params").bind Json.object?).getD [] }] }
  | answered {id : Json} {number : Nat} {call : Call} {answer : Answer}
      (hid : idOf fields = some id) (hmethod : fields.lookup "method" = none)
      (hawaited : client.awaited id = some (number, call))
      (hanswer : Answer.ofMessage (.object fields) = .ok answer) :
      Dispatched client fields (client.setCall number { call with future := .answered answer })
  | unawaited {id : Json} (hid : idOf fields = some id) (hmethod : fields.lookup "method" = none)
      (hawaited : client.awaited id = none) : Dispatched client fields client
  | notification {method : Json} {name : String} (hid : idOf fields = none)
      (hmethod : fields.lookup "method" = some method) (hname : method.string? = some name) :
      Dispatched client fields
        (client.putNotification (Notification.ofFrame name (fields.lookup "params")))
  | unknown (hid : idOf fields = none) (hmethod : fields.lookup "method" = none) :
      Dispatched client fields client

theorem eq_object {message : Json} {fields : List (String × Json)}
    (hmessage : message.object? = some fields) : message = .object fields := by
  cases message <;> cases hmessage
  rfl

theorem dispatch_cases {message : Json} (hdispatch : client.dispatch message = .ok next) :
    ∃ fields, message = .object fields ∧ Dispatched client fields next := by
  cases hmessage : message.object? with
  | none =>
      obtain ⟨error, herror⟩ := dispatch_of_not_object client hmessage
      cases hdispatch.symm.trans herror
  | some fields =>
      obtain rfl := eq_object hmessage
      refine ⟨fields, rfl, ?_⟩
      cases hid : idOf fields with
      | none =>
          cases hmethod : fields.lookup "method" with
          | none =>
              cases hdispatch.symm.trans (dispatch_unknown hid hmethod)
              exact .unknown hid hmethod
          | some method =>
              rw [dispatch_notification hid hmethod] at hdispatch
              cases hname : method.string? with
              | none =>
                  rw [hname] at hdispatch
                  cases hdispatch
              | some name =>
                  rw [hname] at hdispatch
                  cases hdispatch
                  exact .notification hid hmethod hname
      | some id =>
          cases hmethod : fields.lookup "method" with
          | some method =>
              cases hdispatch.symm.trans (dispatch_request hid hmethod)
              exact .request hid hmethod
          | none =>
              rw [dispatch_response hid hmethod] at hdispatch
              cases hhash : id.hashable with
              | false =>
                  obtain ⟨error, herror⟩ := resolveResponse_of_unhashable client hid hhash
                  cases hdispatch.symm.trans herror
              | true =>
                  cases hawaited : client.awaited id with
                  | none =>
                      cases hdispatch.symm.trans (resolveResponse_of_not_awaited hid hhash hawaited)
                      exact .unawaited hid hmethod hawaited
                  | some found =>
                      rw [resolveResponse_of_awaited hid hawaited] at hdispatch
                      cases hanswer : Answer.ofMessage (.object fields) with
                      | error error =>
                          rw [hanswer] at hdispatch
                          cases hdispatch
                      | ok answer =>
                          rw [hanswer] at hdispatch
                          cases hdispatch
                          exact .answered hid hmethod hawaited hanswer

theorem dispatch_oneChange {message : Json} (hdispatch : client.dispatch message = .ok next) :
    OneChange client next := by
  obtain ⟨fields, rfl, hcase⟩ := dispatch_cases hdispatch
  cases hcase with
  | request => exact .spawned _
  | unawaited | unknown => exact .unchanged
  | notification => exact .enqueued _
  | answered _ _ hawaited _ =>
      obtain ⟨hpending, hcall, hfuture⟩ := awaited_eq_some hawaited
      exact .completed _ _ _ (pendingId?_mem hpending) hcall hfuture

/-- What the client owes a message: it does not raise, and when the message is malformed nothing
happens. -/
def MessageMet (client : AppServerClient Value) (message : Json) : Prop :=
  ∃ next, client.dispatch message = .ok next ∧ (wellFormedMessage message = false → next = client)

theorem setCall_ne {id : Nat} {call changed : Call} (hcall : client.calls id = some call)
    (hne : changed.future.isPending ≠ call.future.isPending) : client.setCall id changed ≠ client := by
  intro heq
  have hcalls := congrArg (fun client => client.calls id) heq
  simp only [AppServerClient.setCall, Function.update_self, hcall, Option.some.injEq] at hcalls
  exact hne (by rw [hcalls])

theorem messageMet_response {id : Json} (hid : idOf fields = some id)
    (hmethod : fields.lookup "method" = none) :
    MessageMet client (.object fields) ↔
      (id.hashable && ((client.awaited id).isNone ||
        Json.isNumber id && (fields.lookup "error").all fun error => error.object?.isSome)) =
          true := by
  unfold MessageMet
  rw [dispatch_response hid hmethod]
  cases hhash : id.hashable with
  | false =>
      obtain ⟨error, herror⟩ := resolveResponse_of_unhashable client hid hhash
      simp [herror]
  | true =>
      cases hawaited : client.awaited id with
      | none => simp [resolveResponse_of_not_awaited hid hhash hawaited]
      | some found =>
          obtain ⟨hpending, hcall, hfuture⟩ := awaited_eq_some hawaited
          rw [resolveResponse_of_awaited hid hawaited]
          have hchanged : ∀ answer : Answer, client.setCall found.1
              { found.2 with future := .answered answer } ≠ client := fun answer =>
            setCall_ne hcall (by rw [hfuture]; exact Bool.false_ne_true)
          cases hanswer : Answer.ofMessage (.object fields) with
          | error error =>
              have hno : (fields.lookup "error").all (fun error => error.object?.isSome) ≠ true := by
                intro hall
                obtain ⟨answer, hsome⟩ := (ofMessage_object fields).mpr hall
                cases hsome.symm.trans hanswer
              simp [Except.map, hno]
          | ok answer =>
              have hall := (ofMessage_object fields).mp ⟨answer, hanswer⟩
              simp only [Except.map, Except.ok.injEq, exists_eq_left', hchanged, imp_false,
                Bool.not_eq_false, Option.isNone_some, Bool.false_or, hall, Bool.and_true,
                Bool.true_and]
              cases id with
              | number value =>
                  have hint : value.isInt = true ∧ 0 ≤ value.num := by
                    rw [← pendingId?_number hpending]
                    simp [Rat.isInt]
                  simp [wellFormedMessage, hid, hmethod, hint, hall, Json.isNumber]
              | null | bool _ | string _ | array _ | object _ =>
                  simp [wellFormedMessage, hid, hmethod, Json.isNumber]

theorem messageMet_iff {message : Json} :
    MessageMet client message ↔ toleratedMessage client message = true := by
  cases hmessage : message.object? with
  | none =>
      obtain ⟨error, herror⟩ := dispatch_of_not_object client hmessage
      have hfalse : toleratedMessage client message = false := by
        cases message with
        | object fields => cases hmessage
        | null | bool _ | number _ | string _ | array _ => rfl
      simp [MessageMet, herror, hfalse]
  | some fields =>
      obtain rfl := eq_object hmessage
      cases hid : idOf fields with
      | none =>
          cases hmethod : fields.lookup "method" with
          | none => simp [MessageMet, dispatch_unknown hid hmethod, toleratedMessage, hid, hmethod]
          | some method =>
              cases hname : method.string? <;>
                simp [MessageMet, dispatch_notification hid hmethod, toleratedMessage, hid, hmethod,
                  hname, wellFormedMessage]
      | some id =>
          cases hmethod : fields.lookup "method" with
          | some method =>
              simp [MessageMet, dispatch_request hid hmethod, toleratedMessage, hid, hmethod,
                wellFormedMessage]
          | none =>
              rw [messageMet_response hid hmethod]
              simp only [toleratedMessage, hid, hmethod]

/-! ### Frames -/

section

variable {raw : Frame}

theorem wellFormed_eq_false (h : wellFormed env raw = false) {message : Json}
    (hmessage : message? env raw = some message) : wellFormedMessage message = false := by
  simpa [wellFormed, hmessage] using h

@[simp]
theorem receive_of_bytes (hdecode : raw.decode = none) :
    client.receive env raw = .error .unicodeDecodeError := by
  simp [AppServerClient.receive, hdecode]

theorem receive_of_text {text : String} (hdecode : raw.decode = some text)
    (hloads : env.loads text = none) : client.receive env raw = .ok client := by
  simp [AppServerClient.receive, hdecode, hloads]

theorem receive_of_message {text : String} {message : Json} (hdecode : raw.decode = some text)
    (hloads : env.loads text = some message) :
    client.receive env raw = (client.dispatch message).mapError .raised := by
  simp [AppServerClient.receive, hdecode, hloads]

theorem mapError_eq_ok {α Error Error' : Type} {convert : Error → Error'} {result : Except Error α}
    {value : α} : result.mapError convert = .ok value ↔ result = .ok value := by
  cases result <;> simp [Except.mapError]

/-- What the client owes a frame. -/
def FrameMet (env : Env Value) (client : AppServerClient Value) (raw : Frame) : Prop :=
  ∃ next, client.receive env raw = .ok next ∧ (wellFormed env raw = false → next = client)

/-- **The frames the reader takes as it should.** -/
theorem frameMet_iff : FrameMet env client raw ↔ toleratedFrame env client raw = true := by
  unfold FrameMet toleratedFrame
  cases hdecode : raw.decode with
  | none => simp [hdecode]
  | some text =>
      cases hloads : env.loads text with
      | none => simp [receive_of_text hdecode hloads, hloads]
      | some message =>
          have hmessage : message? env raw = some message := by
            simp [message?, hdecode, hloads]
          simp only [receive_of_message hdecode hloads, mapError_eq_ok, hloads, Option.all_some,
            wellFormed, hmessage, Option.any_some]
          exact messageMet_iff

theorem receive_cases (hreceive : client.receive env raw = .ok next) :
    message? env raw = none ∧ next = client ∨
      ∃ message, message? env raw = some message ∧ client.dispatch message = .ok next := by
  cases hdecode : raw.decode with
  | none => simp [hdecode] at hreceive
  | some text =>
      cases hloads : env.loads text with
      | none =>
          cases hreceive.symm.trans (receive_of_text hdecode hloads)
          exact .inl ⟨by simp [message?, hdecode, hloads], rfl⟩
      | some message =>
          rw [receive_of_message hdecode hloads, mapError_eq_ok] at hreceive
          exact .inr ⟨message, by simp [message?, hdecode, hloads], hreceive⟩

theorem receive_oneChange (hreceive : client.receive env raw = .ok next) : OneChange client next := by
  rcases receive_cases hreceive with ⟨_, rfl⟩ | ⟨message, _, hdispatch⟩
  · exact .unchanged
  · exact dispatch_oneChange hdispatch

/-! ### The memory of first responses stands aside -/

theorem noteResponse_eq (env : Env Value) (client : AppServerClient Value) (raw : Frame) :
    ∃ answers, client.noteResponse env raw = { client with firstAnswers := answers } := by
  unfold AppServerClient.noteResponse
  split
  · split
    · exact ⟨_, rfl⟩
    · exact ⟨_, rfl⟩
  · exact ⟨_, rfl⟩

theorem noteResponse_of_malformed (h : wellFormed env raw = false) :
    client.noteResponse env raw = client := by
  have hnone : response? env raw = none := by
    unfold response?
    cases hmessage : message? env raw with
    | none => rfl
    | some message => simp [Option.filter, wellFormed_eq_false h hmessage]
  simp [AppServerClient.noteResponse, hnone]

theorem toleratedFrame_noteResponse :
    toleratedFrame env (client.noteResponse env raw) raw = toleratedFrame env client raw := by
  obtain ⟨answers, heq⟩ := noteResponse_eq env client raw
  rw [heq]
  rfl

end

/-! ### Runs -/

/-- The step is no frame, or one that the client takes as it should. -/
def tolerates (env : Env Value) (client : AppServerClient Value) : Action Value → Bool
  | .frame raw => toleratedFrame env client raw
  | _ => true

def wellFormedAction (env : Env Value) : Action Value → Bool
  | .frame raw => wellFormed env raw
  | _ => true

/-- No frame has ended the reader, and without the malformed frames everything would be as it is. -/
def Harmless (env : Env Value) (queueMax : Nat) (done : List (Action Value))
    (client : AppServerClient Value) : Prop :=
  client.crashed = false ∧
    run (step env) (start queueMax) (done.filter (wellFormedAction env)) = some client

theorem OneChange.crashed (h : OneChange client next) : next.crashed = client.crashed := by
  cases h <;> rfl

theorem crashed_of_not_frame {action : Action Value} (hstep : step env client action = some next)
    (haction : ∀ raw, action ≠ .frame raw) : next.crashed = client.crashed := by
  cases step_cases hstep with
  | @received raw _ _ _ _ => exact absurd rfl (haction raw)
  | @crashed raw _ _ _ _ => exact absurd rfl (haction raw)
  | _ => rfl

/-- A frame that is not malformed belongs to both runs. -/
theorem harmless_wellFormed {queueMax : Nat} {done : List (Action Value)} {action : Action Value}
    (hsame : run (step env) (start queueMax) (done.filter (wellFormedAction env)) = some client)
    (hformed : wellFormedAction env action = true) (hstep : step env client action = some next) :
    Harmless env queueMax (done ++ [action]) next ↔ next.crashed = false := by
  have hfilter : (done ++ [action]).filter (wellFormedAction env) =
      done.filter (wellFormedAction env) ++ [action] := by
    simp [List.filter_append, hformed]
  unfold Harmless
  rw [hfilter, Transition.run_concat hsame action, hstep]
  simp

theorem harmless_malformed {queueMax : Nat} {done : List (Action Value)} {action : Action Value}
    (hsame : run (step env) (start queueMax) (done.filter (wellFormedAction env)) = some client)
    (hformed : wellFormedAction env action = false) :
    Harmless env queueMax (done ++ [action]) next ↔ next.crashed = false ∧ client = next := by
  have hfilter : (done ++ [action]).filter (wellFormedAction env) =
      done.filter (wellFormedAction env) := by
    simp [List.filter_append, hformed]
  unfold Harmless
  rw [hfilter, hsame, Option.some.injEq]

theorem harmless_step {queueMax : Nat} {done : List (Action Value)} {action : Action Value}
    (hbefore : Harmless env queueMax done client) (hstep : step env client action = some next) :
    Harmless env queueMax (done ++ [action]) next ↔ tolerates env client action = true := by
  obtain ⟨halive, hsame⟩ := hbefore
  by_cases hframe : ∃ raw, action = .frame raw
  case neg =>
      have hother : ∀ raw, action ≠ .frame raw := fun raw heq => hframe ⟨raw, heq⟩
      have hformed : wellFormedAction env action = true := by
        cases action <;> first | rfl | exact absurd rfl (hother _)
      have htolerates : tolerates env client action = true := by
        cases action <;> first | rfl | exact absurd rfl (hother _)
      rw [harmless_wellFormed hsame hformed hstep, crashed_of_not_frame hstep hother]
      simp [halive, htolerates]
  case pos =>
      obtain ⟨raw, rfl⟩ := hframe
      change _ ↔ toleratedFrame env client raw = true
      rw [← toleratedFrame_noteResponse, ← frameMet_iff]
      obtain ⟨answers, hnoted⟩ := noteResponse_eq env client raw
      have hnotedAlive : (client.noteResponse env raw).crashed = false := by
        rw [hnoted]
        exact halive
      cases hformed : wellFormed env raw with
      | true =>
          have hkept : wellFormedAction env (.frame raw) = true := hformed
          rw [harmless_wellFormed hsame hkept hstep]
          unfold FrameMet
          cases step_cases hstep with
          | received _ _ hreceive =>
              simp [hreceive, hformed, (receive_oneChange hreceive).crashed, hnotedAlive]
          | crashed _ _ hreceive => simp [hreceive]
      | false =>
          have hdropped : wellFormedAction env (.frame raw) = false := hformed
          rw [harmless_malformed hsame hdropped]
          unfold FrameMet
          rw [noteResponse_of_malformed hformed]
          cases step_cases hstep with
          | received _ _ hreceive =>
              rw [noteResponse_of_malformed hformed] at hreceive
              simp [hreceive, hformed, (receive_oneChange hreceive).crashed, halive, eq_comm]
          | crashed _ _ hreceive =>
              rw [noteResponse_of_malformed hformed] at hreceive
              simp [hreceive]

/-- **One bad frame.** A frame that the reader survives changes one thing at most. Malformed frames
have no effect on a run, and no frame ends the reader, just if every frame comes to a client that
takes it as it should. -/
theorem bad_frames_harmless (env : Env Value) (queueMax : Nat) :
    (∀ (client next : AppServerClient Value) raw,
      client.receive env raw = .ok next → OneChange client next) ∧
    ∀ (actions : List (Action Value)) (client : AppServerClient Value),
      run (step env) (start queueMax) actions = some client →
      ((∀ done middle, done <+: actions → run (step env) (start queueMax) done = some middle →
          Harmless env queueMax done middle) ↔
        RunAllowed (step env) (fun client action => tolerates env client action = true)
          (start queueMax) actions) := by
  refine ⟨fun client next raw => receive_oneChange, fun actions client hrun => ?_⟩
  exact Transition.runAllowed_iff ⟨rfl, rfl⟩
    (fun done before action after _ hbefore hstep => harmless_step hbefore hstep) hrun

/-- A frame that says `null` takes the connection down. -/
theorem null_frame_crashes :
    let env : Env Unit := {
      loads := fun text => if text = "null" then some .null else none
      dumps := fun _ => none
      str := fun _ => ""
      handlers := fun _ => false }
    (run (step env) (start 1) [.connect, .request, .sent 1, .frame (.text "null")]).any
      (fun client => client.crashed && !client.connected && client.pending.isEmpty) = true := by
  decide +kernel

end CodexServer.Transport
