import CodexServer.Proof.Dispatch

/-!
# The notification queue

The queue is documented to give up its oldest entry when it is full. It is compared with a queue
that does, over all that can happen to a client.
-/

namespace CodexServer.Transport

open BoundedQueue (Event contents puts full put? offer)
open Transition (run RunAllowed Reach)

variable {Value : Type} {env : Env Value} {client next : AppServerClient Value} {queueMax : Nat}

/-- The queue holds what the documented one does: the entries put last that have not been taken, in
their order. The one put last of all is not lost, and after the connection that is the sentinel. -/
structure DropsOldest (queueMax : Nat) (client : AppServerClient Value) : Prop where
  documented : contents queueMax client.queueEvents = ⟨client.received, client.notifications⟩
  recent : client.notifications <:+ puts client.queueEvents
  bounded : client.notifications.length ≤ queueMax
  newest : (client.received ++ client.notifications).getLast? = (puts client.queueEvents).getLast?
  sentinel : client.disconnected = true → (puts client.queueEvents).getLast? = some none

/-- What holds of a client whatever its queue does. -/
structure QueueBase (queueMax : Nat) (client : AppServerClient Value) : Prop where
  limit : client.queueMax = queueMax
  alone : client.disconnected = true → client.connected = false
  sentinel : client.disconnected = true → (puts client.queueEvents).getLast? = some none

theorem dropsOldest_iff (hlimit : 1 ≤ queueMax) (hbase : QueueBase queueMax client) :
    DropsOldest queueMax client ↔
      contents queueMax client.queueEvents = ⟨client.received, client.notifications⟩ := by
  refine ⟨DropsOldest.documented, fun hcontents => ?_⟩
  have hrecent := BoundedQueue.contents_suffix queueMax client.queueEvents
  have hbounded := BoundedQueue.length_contents_le hlimit client.queueEvents
  have hnewest := BoundedQueue.getLast?_contents queueMax client.queueEvents
  rw [hcontents] at hrecent hbounded hnewest
  exact ⟨hcontents, hrecent, hbounded, hnewest, hbase.sentinel⟩

/-! ### Which frames reach the queue -/

section

variable {raw : Frame}

theorem notification?_eq_some {note : Notification} (hnote : notification? env raw = some note) :
    client.receive env raw = .ok (client.putNotification note) := by
  unfold notification? at hnote
  split at hnote
  case h_2 => cases hnote
  case h_1 fields hmessage =>
      obtain ⟨text, hdecode, hloads⟩ := Option.bind_eq_some_iff.mp hmessage
      rw [receive_of_message hdecode hloads]
      split at hnote
      case h_2 => cases hnote
      case h_1 method hid hmethod =>
          cases hnote
          obtain ⟨value, hvalue, hname⟩ := Option.bind_eq_some_iff.mp hmethod
          rw [dispatch_notification hid hvalue, hname]
          rfl

theorem notification?_eq_none (hnote : notification? env raw = none)
    (hreceive : client.receive env raw = .ok next) :
    ∃ calls tasks, next = { client with calls := calls, tasks := tasks } := by
  rcases receive_cases hreceive with ⟨_, rfl⟩ | ⟨message, hmessage, hdispatch⟩
  · exact ⟨_, _, rfl⟩
  · obtain ⟨fields, rfl, hcase⟩ := dispatch_cases hdispatch
    cases hcase with
    | request | answered | unawaited | unknown => exact ⟨_, _, rfl⟩
    | notification hid hmethod hname => simp [notification?, hmessage, hid, hmethod, hname] at hnote

end

/-! ### Entries -/

@[simp]
theorem puts_put (events : List (Event (Option Notification))) (entry : Option Notification) :
    puts (events ++ [.put entry]) = puts events ++ [entry] := by
  simp [BoundedQueue.puts_concat, BoundedQueue.Event.entry?]

@[simp]
theorem puts_take (events : List (Event (Option Notification))) :
    puts (events ++ [.take]) = puts events := by
  simp [BoundedQueue.puts_concat, BoundedQueue.Event.entry?]

theorem contents_put {events : List (Event (Option Notification))} {taken queue}
    (hcontents : contents queueMax events = ⟨taken, queue⟩) (entry : Option Notification) :
    contents queueMax (events ++ [.put entry]) = ⟨taken, offer queueMax queue entry⟩ := by
  rw [BoundedQueue.contents_concat, hcontents]
  rfl

theorem contents_take {events : List (Event (Option Notification))} {taken entry rest}
    (hcontents : contents queueMax events = ⟨taken, entry :: rest⟩) :
    contents queueMax (events ++ [.take]) = ⟨taken ++ [entry], rest⟩ := by
  rw [BoundedQueue.contents_concat, hcontents]
  rfl

/-- The sentinel makes room for itself. -/
theorem notifications_wake (client : AppServerClient Value)
    (hbound : client.notifications.length ≤ client.queueMax) :
    client.wakeNotifications.notifications = offer client.queueMax client.notifications none := by
  have hroom : full client.queueMax client.notifications.tail = false :=
    BoundedQueue.full_tail fun _ => hbound
  simp only [AppServerClient.wakeNotifications]
  cases hput : put? client.queueMax client.notifications none with
  | some queue => exact BoundedQueue.put?_eq_some hput
  | none =>
      have hfull : full client.queueMax client.notifications = true := by
        by_contra hfree
        simp [put?, hfree] at hput
      rw [BoundedQueue.offer_of_full hfull]
      simp [put?, hroom]

theorem wake_eq (client : AppServerClient Value)
    (hbound : client.notifications.length ≤ client.queueMax)
    (hcontents : contents client.queueMax client.queueEvents =
      ⟨client.received, client.notifications⟩) :
    contents client.queueMax client.wakeNotifications.queueEvents =
      ⟨client.received, client.wakeNotifications.notifications⟩ := by
  rw [notifications_wake client hbound]
  exact contents_put hcontents none

/-- A notification that comes to a full queue is not put into it, the others are. -/
theorem putNotification_iff (client : AppServerClient Value) (note : Notification)
    (hcontents : contents client.queueMax client.queueEvents =
      ⟨client.received, client.notifications⟩) :
    contents client.queueMax (client.putNotification note).queueEvents =
        ⟨client.received, (client.putNotification note).notifications⟩ ↔
      (full client.queueMax client.notifications = true →
        client.notifications.tail ++ [some note] = client.notifications) := by
  simp only [AppServerClient.putNotification, contents_put hcontents, BoundedQueue.Contents.mk.injEq,
    true_and]
  by_cases hfull : full client.queueMax client.notifications = true
  · rw [BoundedQueue.offer_of_full hfull, BoundedQueue.put?_of_full hfull]
    simp [hfull]
  · simp only [Bool.not_eq_true] at hfull
    rw [BoundedQueue.offer_of_room hfull]
    simp [put?, hfull]

/-! ### Steps -/

theorem queueBase_start (queueMax : Nat) : QueueBase queueMax (start queueMax : AppServerClient Value)
    where
  limit := rfl
  alone := fun h => by cases h
  sentinel := fun h => by cases h

theorem QueueBase.note (h : QueueBase queueMax client) (env : Env Value) (raw : Frame) :
    QueueBase queueMax (client.noteResponse env raw) := by
  obtain ⟨answers, heq⟩ := noteResponse_eq env client raw
  rw [heq]
  exact ⟨h.limit, h.alone, h.sentinel⟩

theorem QueueBase.readerEnds (h : QueueBase queueMax client) :
    QueueBase queueMax client.readerEnds where
  limit := h.limit
  alone := fun _ => rfl
  sentinel := fun _ => by
    change (puts (client.queueEvents ++ [.put none])).getLast? = _
    simp

theorem QueueBase.step {action : Action Value} (h : QueueBase queueMax client)
    (hstep : step env client action = some next) : QueueBase queueMax next := by
  cases step_cases hstep with
  | connected => exact ⟨h.limit, fun hgone => absurd hgone Bool.false_ne_true,
      fun hgone => absurd hgone Bool.false_ne_true⟩
  | @received raw _ hconnected _ hreceive =>
      have hnoted := h.note env raw
      obtain ⟨answers, heq⟩ := noteResponse_eq env client raw
      cases hnote : notification? env raw with
      | none =>
          obtain ⟨calls, tasks, rfl⟩ := notification?_eq_none hnote hreceive
          exact ⟨hnoted.limit, hnoted.alone, hnoted.sentinel⟩
      | some note =>
          cases hreceive.symm.trans (notification?_eq_some hnote)
          have halive : (client.noteResponse env raw).connected = true := by
            rw [heq]
            exact hconnected
          refine ⟨hnoted.limit, hnoted.alone, fun hgone => ?_⟩
          exact absurd (hnoted.alone hgone) (by simp [halive])
  | @crashed raw _ _ _ _ =>
      have hended := (h.note env raw).readerEnds
      exact ⟨hended.limit, hended.alone, hended.sentinel⟩
  | taken =>
      refine ⟨h.limit, h.alone, fun hgone => ?_⟩
      rw [puts_take]
      exact h.sentinel hgone
  | lost => exact h.readerEnds
  | closed => exact ⟨h.readerEnds.limit, h.readerEnds.alone, h.readerEnds.sentinel⟩
  | _ => exact ⟨h.limit, h.alone, h.sentinel⟩

/-- A notification that comes to a full queue is as good as lost, unless the queue is full of
notifications like it. -/
def Fits (env : Env Value) (client : AppServerClient Value) : Action Value → Prop
  | .frame raw => ∀ note, notification? env raw = some note →
      full client.queueMax client.notifications = true →
        client.notifications.tail ++ [some note] = client.notifications
  | _ => True

theorem dropsOldest_step {action : Action Value} (hlimit : 1 ≤ queueMax)
    (hbase : QueueBase queueMax client) (h : DropsOldest queueMax client)
    (hstep : step env client action = some next) :
    DropsOldest queueMax next ↔ Fits env client action := by
  rw [dropsOldest_iff hlimit (hbase.step hstep)]
  have hcontents := h.documented
  have hbound := h.bounded
  obtain rfl := hbase.limit
  cases step_cases hstep with
  | @received raw _ _ _ hreceive =>
      obtain ⟨answers, heq⟩ := noteResponse_eq env client raw
      rw [heq] at hreceive
      cases hnote : notification? env raw with
      | none =>
          obtain ⟨calls, tasks, rfl⟩ := notification?_eq_none hnote hreceive
          simp [Fits, hnote, hcontents]
      | some note =>
          cases hreceive.symm.trans (notification?_eq_some hnote)
          have hiff := putNotification_iff { client with firstAnswers := answers } note hcontents
          simp only [Fits, hnote, Option.some.injEq, forall_eq']
          exact hiff
  | @crashed raw error _ _ hreceive =>
      obtain ⟨answers, heq⟩ := noteResponse_eq env client raw
      have hnone : notification? env raw = none := by
        cases hnote : notification? env raw with
        | none => rfl
        | some note => cases hreceive.symm.trans (notification?_eq_some hnote)
      simp only [Fits, hnone, reduceCtorEq, false_implies, implies_true, iff_true]
      rw [heq]
      exact wake_eq ({ client with firstAnswers := answers } : AppServerClient Value).dropSocket
        hbound hcontents
  | taken hqueue =>
      simp only [Fits, iff_true]
      rw [hqueue] at hcontents
      exact contents_take hcontents
  | lost =>
      simp only [Fits, iff_true]
      exact wake_eq client.dropSocket hbound hcontents
  | closed =>
      simp only [Fits, iff_true]
      exact wake_eq client.dropSocket hbound hcontents
  | _ =>
      simp only [Fits, iff_true]
      exact hcontents

/-- **The queue gives up its oldest entry** in every state of a run, just if no notification comes to
a queue that is full, unless of notifications like it. -/
theorem drop_oldest_queue (env : Env Value) (hlimit : 1 ≤ queueMax) {actions : List (Action Value)}
    (hrun : run (step env) (start queueMax) actions = some client) :
    (∀ done middle, done <+: actions → run (step env) (start queueMax) done = some middle →
        DropsOldest queueMax middle) ↔
      RunAllowed (step env) (Fits env) (start queueMax) actions := by
  have hinit : DropsOldest queueMax (start queueMax : AppServerClient Value) :=
    (dropsOldest_iff hlimit (queueBase_start queueMax)).mpr rfl
  refine Transition.runAllowed_iff hinit ?_ hrun
  intro done before action after hdone hbefore hstep
  have hbase : QueueBase queueMax before :=
    (Transition.reach_of_run_all hdone).invariant (QueueBase queueMax) (queueBase_start queueMax)
      fun _ _ _ hinv _ hnext => hinv.step hnext
  exact dropsOldest_step hlimit hbase hbefore hstep

/-- The sidecar's frames of the executed run below. -/
def noteEnv : Env Unit where
  loads := fun text => some (.object [("method", .string text)])
  dumps := fun _ => none
  str := fun _ => ""
  handlers := fun _ => false

theorem drop_oldest_queue_executed :
    (∀ done middle, done <+: [.connect, .frame (.text "turn/completed"), .take] →
        run (step noteEnv) (start 1) done = some middle → DropsOldest 1 middle) ↔
      RunAllowed (step noteEnv) (Fits noteEnv) (start 1)
        [.connect, .frame (.text "turn/completed"), .take] :=
  drop_oldest_queue noteEnv le_rfl rfl

/-- With room for one, `turn/completed` is the entry that is given up. -/
theorem newest_entry_given_up :
    (run (step noteEnv) (start 1)
      [.connect, .frame (.text "turn/started"), .frame (.text "turn/completed")]).any
        (fun client => client.notifications.map (Option.map Notification.method) =
          [some "turn/started"]) = true := by
  decide +kernel

end CodexServer.Transport
