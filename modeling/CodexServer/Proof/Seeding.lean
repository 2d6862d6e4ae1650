import CodexServer.Seeding

/-!
# Fresh threads

A thread can be started at three places and is seeded at one. What is seeded are the recent
messages without the last of the user, which is not always the turn's own.
-/

namespace CodexServer.Seeding

/-! ### What a trace owes to a fresh thread -/

/-- What was sent since a thread was last started under this id; nothing if none was. -/
def sinceStart (threadId : ThreadId) (sent : List Sent) : Option (List Sent) :=
  sent.foldl (fun since request =>
    if request = .start (some threadId) then some [] else since.map (· ++ [request])) none

def Sent.injected (threadId : ThreadId) : Sent → Option (List HistoryItem)
  | .injectItems id items => if id = threadId then some items else none
  | _ => none

/-- The lists of items injected into a thread. -/
def injections (threadId : ThreadId) (sent : List Sent) : List (List HistoryItem) :=
  sent.filterMap (Sent.injected threadId)

/-- The history of the turn whose own message is `own`. -/
def seedItems (history : History) (own : Nat) : List HistoryItem :=
  messagesToHistoryItems (history.recent.filter fun message => message.id ≠ own)

/-- A turn is started on a fresh thread after one injection of its history, and on any other
thread freely; only a thread of this call is injected, and never with the turn's own message. -/
def SeededAt (history : History) (own : Nat) (before : List Sent) : Sent → Prop
  | .turnStart threadId => ∀ since, sinceStart threadId before = some since →
      injections threadId since =
        if seedItems history own = [] then [] else [seedItems history own]
  | .injectItems threadId items =>
      (sinceStart threadId before).isSome ∧ ∀ item ∈ items, item.messageId ≠ own
  | .resume _ | .start _ => True

@[simp] theorem seededAt_resume {history : History} {own : Nat} {before : List Sent}
    {threadId : ThreadId} : SeededAt history own before (.resume threadId) :=
  trivial

@[simp] theorem seededAt_start {history : History} {own : Nat} {before : List Sent}
    {threadId : Option ThreadId} : SeededAt history own before (.start threadId) :=
  trivial

theorem seededAt_injectItems {history : History} {own : Nat} {before : List Sent}
    {threadId : ThreadId} {items : List HistoryItem} :
    SeededAt history own before (.injectItems threadId items) ↔
      (sinceStart threadId before).isSome ∧ ∀ item ∈ items, item.messageId ≠ own :=
  Iff.rfl

def SeededAfter (history : History) (own : Nat) : List Sent → List Sent → Prop
  | _, [] => True
  | before, request :: after =>
      SeededAt history own before request ∧ SeededAfter history own (before ++ [request]) after

def Seeded (history : History) (own : Nat) (sent : List Sent) : Prop :=
  SeededAfter history own [] sent

theorem sinceStart_concat (threadId : ThreadId) (sent : List Sent) (request : Sent) :
    sinceStart threadId (sent ++ [request]) =
      if request = .start (some threadId) then some []
      else (sinceStart threadId sent).map (· ++ [request]) := by
  simp [sinceStart]

/-! ### What a client sends -/

/-- The thread that `thread/start` opens. -/
def started : Answer (Option ThreadId) → Option ThreadId
  | .ok threadId => threadId
  | .error _ | .raised => none

def Answer.failure {α : Type} : Answer α → Failure
  | .error exc => .appServerError exc
  | .ok _ | .raised => .other

/-- What `requestTurnStart` comes to. -/
def Answer.turnStarted : Answer Unit → Except Failure (Option AppServerError)
  | .ok () => .ok none
  | .error exc => .ok (some exc)
  | .raised => .error .other

/-- The sidecar does not have the thread, or cannot resume one. -/
def Answer.lost : Answer Unit → Bool
  | .error exc => isThreadNotFound exc || exc.code = -32601
  | .ok _ | .raised => false

namespace ClientM

/-- What a computation comes to, and the client after it. -/
abbrev outcome {α : Type} (computation : ClientM α) (client : Client) :
    Except Failure α × Client :=
  computation.run.run client

variable {α β : Type} {client next : Client} {failure : Failure} {result : α}
  {computation : ClientM α} {rest : α → ClientM β}

theorem bind_ok (h : outcome computation client = (.ok result, next)) :
    outcome (computation >>= rest) client = outcome (rest result) next := by
  simp only [outcome, ExceptT.run_bind, StateT.run_bind] at h ⊢
  rw [h]
  rfl

theorem bind_error (h : outcome computation client = (.error failure, next)) :
    outcome (computation >>= rest) client = (.error failure, next) := by
  simp only [outcome, ExceptT.run_bind, StateT.run_bind] at h ⊢
  rw [h]
  rfl

end ClientM

open ClientM (outcome)

variable {client : Client}

def Client.send (client : Client) (sent : Sent) : Client :=
  { client with sent := client.sent ++ [sent] }

theorem requestTurnStart_outcome (threadId : ThreadId) (answer : Answer Unit) :
    outcome (requestTurnStart threadId answer) client =
      (answer.turnStarted, client.send (.turnStart threadId)) := by
  cases answer <;> rfl

/-! ### Opening a thread -/

/-- It has been given a thread by `thread/start`. -/
def Client.opened (client : Client) (threadId : ThreadId) : Client :=
  { client with
    threadId := threadId
    resumedOrStarted := true
    changes := client.changes ++ [threadId] }

def Client.resumed (client : Client) : Client :=
  { client with resumedOrStarted := true }

def Client.reset (client : Client) : Client :=
  { client with
    threadId := .null
    resumedOrStarted := false
    changes := client.changes ++ [.null] }

theorem openNewThread_some {answer : Answer (Option ThreadId)} {threadId : ThreadId}
    (hopens : started answer = some threadId) :
    outcome (openNewThread answer) client =
      (.ok threadId, (client.send (.start (some threadId))).opened threadId) := by
  cases answer with
  | ok result =>
      obtain rfl : result = some threadId := hopens
      rfl
  | error | raised => cases hopens

theorem openNewThread_none {answer : Answer (Option ThreadId)} (hopens : started answer = none) :
    outcome (openNewThread answer) client =
      (.error answer.failure, client.send (.start none)) := by
  cases answer with
  | ok result =>
      obtain rfl : result = none := hopens
      rfl
  | error | raised => rfl

variable {resume : Answer Unit} {start : Answer (Option ThreadId)} {threadId : ThreadId}

theorem resetThread_outcome : outcome resetThread client = (.ok (), client.reset) :=
  rfl

/-- Without a thread, or with one whose id is `None`, a new one is opened. -/
theorem ensureThread_null (hnull : client.threadId = .null) :
    outcome (ensureThread resume start) client = outcome (openNewThread start) client := by
  cases client with
  | mk threadId resumedOrStarted changes sent =>
      obtain rfl : threadId = .null := hnull
      rfl

/-- The client has the thread, and its answer for it. -/
structure Client.Ready (client : Client) (threadId : ThreadId) : Prop where
  has : client.threadId = threadId
  ready : client.resumedOrStarted = true
  named : threadId ≠ .null

theorem Client.ready_opened (client : Client) (hnamed : threadId ≠ .null) :
    (client.opened threadId).Ready threadId :=
  ⟨rfl, rfl, hnamed⟩

theorem ensureThread_ready (hready : client.Ready threadId) :
    outcome (ensureThread resume start) client = (.ok threadId, client) := by
  obtain ⟨hhas, hstarted, hnamed⟩ := hready
  cases client with
  | mk stored resumedOrStarted changes sent =>
      obtain rfl : stored = threadId := hhas
      obtain rfl : resumedOrStarted = true := hstarted
      change outcome (if stored = .null then _ else _) _ = _
      rw [if_neg hnamed]
      rfl

theorem tryResume_refused (hrefused : resume ≠ .ok ()) :
    outcome (tryResume threadId resume) client =
      (if resume.lost then .ok false else .error resume.failure,
        client.send (.resume threadId)) := by
  cases resume with
  | ok => exact absurd rfl hrefused
  | raised => rfl
  | error exc =>
      change outcome (if isThreadNotFound exc || exc.code = -32601 then pure false
        else throw (.appServerError exc)) (client.send (.resume threadId)) = _
      cases hlost : isThreadNotFound exc || exc.code = -32601 <;>
        simp only [Answer.lost, hlost, if_true, if_false, Bool.false_eq_true] <;> rfl

/-- The client has been given a thread to resume. -/
structure Client.Stored (client : Client) (threadId : ThreadId) : Prop where
  has : client.threadId = threadId
  unused : client.resumedOrStarted = false
  named : threadId ≠ .null

theorem ensureThread_resumed (hstored : client.Stored threadId) (hresumed : resume = .ok ()) :
    outcome (ensureThread resume start) client =
      (.ok threadId, (client.send (.resume threadId)).resumed) := by
  obtain ⟨hhas, hunused, hnamed⟩ := hstored
  cases client with
  | mk stored resumedOrStarted changes sent =>
      subst hhas hunused hresumed
      change outcome (if stored = .null then _ else _) _ = _
      rw [if_neg hnamed]
      rfl

theorem ensureThread_refused (hstored : client.Stored threadId) (hrefused : resume ≠ .ok ()) :
    outcome (ensureThread resume start) client =
      if resume.lost then
        outcome (openNewThread start) (client.send (.resume threadId)).reset
      else (.error resume.failure, client.send (.resume threadId)) := by
  have hresumes : outcome (tryResume threadId resume) client = _ := tryResume_refused hrefused
  obtain ⟨hhas, hunused, hnamed⟩ := hstored
  cases client with
  | mk stored resumedOrStarted changes sent =>
      subst hhas hunused
      change outcome (if stored = .null then _ else _) _ = _
      rw [if_neg hnamed]
      show outcome (tryResume stored resume >>= _) _ = _
      by_cases hlost : resume.lost = true
      · rw [if_pos hlost] at hresumes ⊢
        rw [ClientM.bind_ok hresumes]
        rfl
      · rw [if_neg hlost] at hresumes ⊢
        rw [ClientM.bind_error hresumes]

/-! ### Starting the turn -/

namespace Answers

variable (answers : Answers)

/-- The turn is tried once more. -/
def retried : Bool :=
  match answers.turnStart with
  | .error exc => isThreadNotFound exc
  | .ok _ | .raised => false

/-- The requests once there is a thread. -/
def turnRequests (threadId : ThreadId) : List Sent :=
  .turnStart threadId ::
    if answers.retried then
      .start (started answers.startAgain) :: (started answers.startAgain).toList.map .turnStart
    else []

/-- The requests when the thread has no id to be known by: another one is started first. -/
def unnamedRequests : List Sent :=
  .start (started answers.startUnnamed) ::
    (started answers.startUnnamed).elim [] answers.turnRequests

/-- The requests of `_begin_turn_with_retry` on the thread that `open_codex_turn` has left. -/
def beginRequests (threadId : ThreadId) : List Sent :=
  if threadId = .null then answers.unnamedRequests else answers.turnRequests threadId

end Answers

/-- The second try is on a thread of its own. -/
theorem retry_sent (answers : Answers) :
    (outcome (do
        resetThread
        let threadId ← ensureThread answers.resume answers.startAgain
        requestTurnStart threadId answers.turnStartAgain) client).2.sent =
      client.sent ++ .start (started answers.startAgain) ::
        (started answers.startAgain).toList.map .turnStart := by
  rw [ClientM.bind_ok resetThread_outcome]
  have hopens : outcome (ensureThread answers.resume answers.startAgain) client.reset = _ :=
    ensureThread_null rfl
  cases hagain : started answers.startAgain with
  | none =>
      rw [openNewThread_none hagain] at hopens
      rw [ClientM.bind_error hopens]
      rfl
  | some threadId =>
      rw [openNewThread_some hagain] at hopens
      rw [ClientM.bind_ok hopens, requestTurnStart_outcome]
      exact List.append_assoc _ _ _

/-- `_begin_turn_with_retry` once it has a thread. -/
def Answers.beginOn (answers : Answers) (threadId : ThreadId) : ClientM (Option AppServerError) := do
  match ← requestTurnStart threadId answers.turnStart with
  | none => pure none
  | some error =>
      if isThreadNotFound error then
        resetThread
        let threadId ← ensureThread answers.resume answers.startAgain
        requestTurnStart threadId answers.turnStartAgain
      else pure (some error)

theorem turnRequests_sent (answers : Answers) (threadId : ThreadId) :
    (outcome (answers.beginOn threadId) client).2.sent =
      client.sent ++ answers.turnRequests threadId := by
  unfold Answers.beginOn
  have hstarts : outcome (requestTurnStart threadId answers.turnStart) client = _ :=
    requestTurnStart_outcome threadId answers.turnStart
  unfold Answers.turnRequests Answers.retried
  cases hanswered : answers.turnStart with
  | ok =>
      rw [hanswered] at hstarts
      rw [ClientM.bind_ok hstarts]
      rfl
  | raised =>
      rw [hanswered] at hstarts
      rw [ClientM.bind_error hstarts]
      rfl
  | error exc =>
      rw [hanswered] at hstarts
      rw [ClientM.bind_ok hstarts]
      dsimp only
      by_cases hstale : isThreadNotFound exc = true
      · rw [if_pos hstale, if_pos hstale, retry_sent]
        exact List.append_assoc _ _ _
      · rw [if_neg hstale, if_neg hstale]
        rfl

/-- The client has the thread that `open_codex_turn` has left, whatever its id. -/
def Client.Has (client : Client) (threadId : ThreadId) : Prop :=
  client.Ready threadId ∨ client.threadId = threadId ∧ threadId = .null

theorem Client.Has.eq (h : client.Has threadId) : client.threadId = threadId :=
  h.elim Client.Ready.has And.left

theorem Client.Has.send (h : client.Has threadId) (request : Sent) :
    (client.send request).Has threadId :=
  h.imp_left fun hready => ⟨hready.has, hready.ready, hready.named⟩

theorem Client.has_opened (client : Client) (threadId : ThreadId) :
    (client.opened threadId).Has threadId := by
  by_cases hnull : threadId = .null
  · exact .inr ⟨rfl, hnull⟩
  · exact .inl (client.ready_opened hnull)

theorem beginTurnWithRetry_eq (answers : Answers) :
    beginTurnWithRetry answers =
      ensureThread answers.resume answers.startUnnamed >>= answers.beginOn :=
  rfl

theorem beginTurnWithRetry_sent (answers : Answers) (hhas : client.Has threadId) :
    (outcome (beginTurnWithRetry answers) client).2.sent =
      client.sent ++ answers.beginRequests threadId := by
  unfold Answers.beginRequests
  rw [beginTurnWithRetry_eq]
  rcases hhas with hready | ⟨hhas, rfl⟩
  · rw [ClientM.bind_ok (ensureThread_ready hready), if_neg hready.named]
    exact turnRequests_sent answers threadId
  · rw [if_pos rfl]
    have hopens : outcome (ensureThread answers.resume answers.startUnnamed) client = _ :=
      ensureThread_null hhas
    unfold Answers.unnamedRequests
    cases hstart : started answers.startUnnamed with
    | none =>
        rw [openNewThread_none hstart] at hopens
        rw [ClientM.bind_error hopens]
        rfl
    | some threadId =>
        rw [openNewThread_some hstart] at hopens
        rw [ClientM.bind_ok hopens, turnRequests_sent]
        exact List.append_assoc _ _ _

/-! ### Seeding -/

/-- What is seeded. -/
def History.seeded (history : History) : List HistoryItem :=
  messagesToHistoryItems (withoutLastUser history.recent)

theorem injectHistory_outcome {items : List HistoryItem} {answer : Answer Unit}
    (hhas : client.threadId = threadId) (htruthy : threadId.truthy = true) (hitems : items ≠ []) :
    outcome (injectHistory items answer) client =
      (if answer = .raised then .error .other else .ok (),
        client.send (.injectItems threadId items)) := by
  cases client with
  | mk stored resumedOrStarted changes sent =>
      subst hhas
      change outcome (if !stored.truthy || items.isEmpty then pure ()
        else catching (request (.injectItems stored items) answer) fun _ => pure ()) _ = _
      have htruthy : stored.truthy = true := htruthy
      rw [if_neg (by simp [htruthy, hitems])]
      cases answer <;> rfl

theorem injectHistory_falsy {items : List HistoryItem} {answer : Answer Unit}
    (hfalsy : client.threadId.truthy = false) :
    outcome (injectHistory items answer) client = (.ok (), client) := by
  cases client with
  | mk stored resumedOrStarted changes sent =>
      change outcome (if !stored.truthy || items.isEmpty then pure ()
        else catching (request (.injectItems stored items) answer) fun _ => pure ()) _ = _
      have hfalsy : stored.truthy = false := hfalsy
      rw [if_pos (by simp [hfalsy])]
      rfl

theorem seedHistory_nothing {history : History} {answer : Answer Unit}
    (hnothing : client.threadId.truthy = false ∨ history.seeded = []) :
    outcome (seedHistory history answer) client = (.ok (), client) := by
  unfold seedHistory
  rw [← History.seeded]
  by_cases hempty : history.seeded = []
  · rw [hempty]
    rfl
  · simp only [List.isEmpty_iff, hempty, if_false]
    exact injectHistory_falsy (hnothing.resolve_right hempty)

theorem seedHistory_injects {history : History} {answer : Answer Unit}
    (hhas : client.threadId = threadId) (htruthy : threadId.truthy = true)
    (hseeded : history.seeded ≠ []) :
    outcome (seedHistory history answer) client =
      (if answer = .raised then .error .other else .ok (),
        client.send (.injectItems threadId history.seeded)) := by
  unfold seedHistory
  rw [← History.seeded]
  simp only [List.isEmpty_iff, hseeded, if_false]
  exact injectHistory_outcome hhas htruthy hseeded

namespace Opening

variable {opening : Opening} {name : String}

/-- The first thread is seeded. -/
def injects (opening : Opening) (threadId : ThreadId) : Bool :=
  .ofStored opening.storedThreadId ≠ threadId ∧ threadId.truthy ∧ opening.history.seeded ≠ []

/-- The requests once the first thread is there. -/
def seedRequests (opening : Opening) (threadId : ThreadId) : List Sent :=
  if opening.injects threadId then
    .injectItems threadId opening.history.seeded ::
      if opening.answers.inject = .raised then [] else opening.answers.beginRequests threadId
  else opening.answers.beginRequests threadId

/-- The end of `open_codex_turn`. -/
def seedFresh (opening : Opening) : ClientM Unit := do
  if (← get).threadId ≠ .ofStored opening.storedThreadId then
    Seeding.seedHistory opening.history opening.answers.inject

theorem body_eq (opening : Opening) :
    opening.body =
      (do
        let _ ← ensureThread opening.answers.resume opening.answers.start
        opening.seedFresh
        beginTurnWithRetry opening.answers) := by
  simp only [body, openCodexTurn, if_true, bind_assoc]
  rfl

theorem sent_eq (opening : Opening) :
    opening.sent = (outcome (do
      let _ ← ensureThread opening.answers.resume opening.answers.start
      opening.seedFresh
      beginTurnWithRetry opening.answers) { threadId := .ofStored opening.initial }).2.sent := by
  rw [sent, body_eq]

theorem seedFresh_nothing (hhas : client.threadId = threadId)
    (hnothing : opening.injects threadId = false) :
    outcome opening.seedFresh client = (.ok (), client) := by
  change outcome (if client.threadId ≠ .ofStored opening.storedThreadId then
    Seeding.seedHistory opening.history opening.answers.inject else pure ()) client = _
  rw [hhas]
  by_cases hknown : .ofStored opening.storedThreadId = threadId
  · rw [if_neg (not_not.2 hknown.symm)]
    rfl
  · rw [if_pos (Ne.symm hknown)]
    refine seedHistory_nothing ?_
    rw [hhas]
    by_contra hsome
    obtain ⟨htruthy, hseeded⟩ := not_or.1 hsome
    simp [injects, hknown, htruthy, hseeded] at hnothing

theorem seedFresh_injects (hhas : client.threadId = threadId)
    (hinjects : opening.injects threadId = true) :
    outcome opening.seedFresh client =
      (if opening.answers.inject = .raised then .error .other else .ok (),
        client.send (.injectItems threadId opening.history.seeded)) := by
  obtain ⟨hfresh, htruthy, hseeded⟩ := of_decide_eq_true hinjects
  change outcome (if client.threadId ≠ .ofStored opening.storedThreadId then
    Seeding.seedHistory opening.history opening.answers.inject else pure ()) client = _
  rw [hhas, if_pos (Ne.symm hfresh)]
  exact seedHistory_injects hhas htruthy hseeded

theorem seedRequests_sent (hhas : client.Has threadId) :
    (outcome (do
        opening.seedFresh
        beginTurnWithRetry opening.answers) client).2.sent =
      client.sent ++ opening.seedRequests threadId := by
  unfold seedRequests
  cases hinjects : opening.injects threadId with
  | false =>
      rw [ClientM.bind_ok (seedFresh_nothing hhas.eq hinjects)]
      exact beginTurnWithRetry_sent _ hhas
  | true =>
      have hseeds := seedFresh_injects hhas.eq hinjects
      by_cases hraised : opening.answers.inject = .raised
      · rw [if_pos hraised] at hseeds
        rw [ClientM.bind_error hseeds, if_pos rfl, if_pos hraised]
        rfl
      · rw [if_neg hraised] at hseeds
        rw [ClientM.bind_ok hseeds, beginTurnWithRetry_sent _ (hhas.send _), if_pos rfl,
          if_neg hraised]
        exact List.append_assoc _ _ _

theorem seedRequests_known (hknown : opening.storedThreadId = some name) :
    opening.seedRequests (.text name) = opening.answers.turnRequests (.text name) := by
  simp [seedRequests, injects, hknown, ThreadId.ofStored, Answers.beginRequests]

theorem initial_eq_stored (hresumes : opening.initial = some name) :
    opening.storedThreadId = some name := by
  unfold initial at hresumes
  cases hreuse : opening.threadReuseEnabled with
  | false => simp [hreuse] at hresumes
  | true =>
      rw [hreuse, if_pos rfl, Option.filter_eq_some_iff] at hresumes
      exact hresumes.1

/-- The requests of a call whose first request is `thread/start`. -/
def startRequests (opening : Opening) : List Sent :=
  .start (started opening.answers.start) ::
    (started opening.answers.start).elim [] opening.seedRequests

theorem startRequests_sent {first : Client}
    (hopens : outcome (ensureThread opening.answers.resume opening.answers.start) first =
      outcome (openNewThread opening.answers.start) client) :
    (outcome opening.body first).2.sent = client.sent ++ opening.startRequests := by
  rw [body_eq]
  unfold startRequests
  cases hstart : started opening.answers.start with
  | none =>
      rw [openNewThread_none hstart] at hopens
      rw [ClientM.bind_error hopens]
      rfl
  | some threadId =>
      rw [openNewThread_some hstart] at hopens
      rw [ClientM.bind_ok hopens, seedRequests_sent (Client.has_opened _ _)]
      exact List.append_assoc _ _ _

theorem sent_fresh (hfresh : opening.initial = none) : opening.sent = opening.startRequests := by
  rw [sent, startRequests_sent (ensureThread_null (by rw [hfresh]; rfl))]
  rfl

theorem sent_resumed (hresumes : opening.initial = some name)
    (hresumed : opening.answers.resume = .ok ()) :
    opening.sent = .resume (.text name) :: opening.answers.turnRequests (.text name) := by
  have hstored : Client.Stored { threadId := .ofStored opening.initial } (.text name) :=
    ⟨congrArg ThreadId.ofStored hresumes, rfl, nofun⟩
  have hknown := initial_eq_stored hresumes
  have hensures : outcome (ensureThread _ opening.answers.start) _ = _ :=
    ensureThread_resumed hstored hresumed
  have hhas : (Client.send { threadId := .ofStored opening.initial }
      (.resume (.text name))).resumed.Has (.text name) := .inl ⟨hstored.has, rfl, nofun⟩
  rw [sent_eq, ClientM.bind_ok hensures, seedRequests_sent hhas, seedRequests_known hknown]
  rfl

theorem sent_refused (hresumes : opening.initial = some name)
    (hrefused : opening.answers.resume ≠ .ok ()) :
    opening.sent = .resume (.text name) ::
      if opening.answers.resume.lost then opening.startRequests else [] := by
  have hstored : Client.Stored { threadId := .ofStored opening.initial } (.text name) :=
    ⟨congrArg ThreadId.ofStored hresumes, rfl, nofun⟩
  have hrefuses : outcome (ensureThread _ opening.answers.start) _ = _ :=
    ensureThread_refused hstored hrefused
  by_cases hlost : opening.answers.resume.lost = true
  · rw [if_pos hlost] at hrefuses ⊢
    rw [sent, startRequests_sent hrefuses]
    rfl
  · rw [if_neg hlost] at hrefuses ⊢
    rw [sent_eq, ClientM.bind_error hrefuses]
    rfl

end Opening

/-! ### The history that is seeded -/

namespace History

variable {history : History} {own : Nat}

/-- There is nothing but the turn's own message to replay. -/
def NoOthers (history : History) (own : Nat) : Prop :=
  ∀ message ∈ history.recent, message.isReplayable → message.id = own

/-- No recent message follows the turn's own, unless that is blank. -/
def OwnIsLast (history : History) (own : Nat) : Prop :=
  ∀ message ∈ history.recent.dropLast, message.isReplayable → message.id ≠ own

/-- The last message is not another one of the user, unless that is blank. -/
def LastIsOwn (history : History) (own : Nat) : Prop :=
  ∀ last ∈ history.recent.getLast?, last.role = .user → last.isReplayable → last.id = own

theorem messagesToHistoryItems_eq_nil {messages : List Message} :
    messagesToHistoryItems messages = [] ↔
      ∀ message ∈ messages, ¬message.isReplayable := by
  simp [messagesToHistoryItems, List.filter_eq_nil_iff]

theorem seedItems_eq_nil : seedItems history own = [] ↔ history.NoOthers own := by
  rw [seedItems, messagesToHistoryItems_eq_nil]
  constructor
  · intro hnone message hrecent hreplayable
    by_contra hother
    exact hnone message (List.mem_filter.2 ⟨hrecent, decide_eq_true hother⟩) hreplayable
  · intro hothers message hkept hreplayable
    obtain ⟨hrecent, hother⟩ := List.mem_filter.1 hkept
    exact of_decide_eq_true hother (hothers message hrecent hreplayable)

theorem mem_messagesToHistoryItems {messages : List Message} {item : HistoryItem} :
    item ∈ messagesToHistoryItems messages ↔
      ∃ message ∈ messages, message.isReplayable ∧ message.historyItem = item := by
  simp [messagesToHistoryItems, and_assoc]

theorem withoutLastUser_concat (init : List Message) (last : Message) :
    withoutLastUser (init ++ [last]) = if last.role = .user then init else init ++ [last] := by
  simp [withoutLastUser]

/-- The recent messages are the last ones, so their order is that of the ids. -/
theorem recent_sorted (history : History) :
    history.recent.Pairwise fun message later => message.id < later.id :=
  history.sorted.sublist (List.drop_sublist _ _)

theorem recent_subset (history : History) : history.recent ⊆ history.messages :=
  List.drop_subset _ _

/-- The turn's own message is of the user. -/
def OwnIsUser (history : History) (own : Nat) : Prop :=
  ∀ message ∈ history.messages, message.id = own → message.role = .user

theorem seeded_without_own (husers : history.OwnIsUser own) :
    (∀ item ∈ history.seeded, item.messageId ≠ own) ↔ history.OwnIsLast own := by
  have hrole := fun message hrecent => husers message (history.recent_subset hrecent)
  have hitems : (∀ item ∈ history.seeded, item.messageId ≠ own) ↔
      ∀ message ∈ withoutLastUser history.recent, message.isReplayable → message.id ≠ own := by
    simp only [seeded, mem_messagesToHistoryItems, forall_exists_index, and_imp]
    constructor
    · intro havoids message hmem hreplayable
      exact havoids _ message hmem hreplayable rfl
    · rintro havoids item message hmem hreplayable rfl
      exact havoids message hmem hreplayable
  rw [hitems, OwnIsLast]
  rcases List.eq_nil_or_concat' history.recent with hnone | ⟨init, last, hrecent⟩
  · simp [hnone, withoutLastUser]
  · rw [hrecent] at hrole ⊢
    rw [withoutLastUser_concat, List.dropLast_concat]
    by_cases huser : last.role = .user
    · rw [if_pos huser]
    · have hother : last.id ≠ own := fun his => huser (hrole last (by simp) his)
      simp [huser, or_imp, forall_and, hother]

theorem last_mem_seedItems {last : Message} (hmem : last ∈ history.recent)
    (hreplayable : last.isReplayable) (hother : last.id ≠ own) :
    last.historyItem ∈ seedItems history own :=
  mem_messagesToHistoryItems.2
    ⟨last, List.mem_filter.2 ⟨hmem, decide_eq_true hother⟩, hreplayable, rfl⟩

theorem seeded_eq_seedItems (husers : history.OwnIsUser own) :
    history.seeded = seedItems history own ↔ history.OwnIsLast own ∧ history.LastIsOwn own := by
  constructor
  · intro hsame
    constructor
    · rw [← seeded_without_own husers, hsame]
      intro item hmem
      obtain ⟨message, hkept, -, rfl⟩ := mem_messagesToHistoryItems.1 hmem
      exact of_decide_eq_true (List.mem_filter.1 hkept).2
    · intro last hlast huser hreplayable
      by_contra hother
      obtain ⟨init, hrecent⟩ := List.getLast?_eq_some_iff.1 hlast
      have hmem := last_mem_seedItems (List.mem_of_getLast? hlast) hreplayable hother
      rw [← hsame, seeded, hrecent, withoutLastUser_concat, if_pos huser] at hmem
      obtain ⟨message, hearlier, -, hitem⟩ := mem_messagesToHistoryItems.1 hmem
      have hsorted := history.recent_sorted
      rw [hrecent, List.pairwise_append] at hsorted
      have hbefore : message.id < last.id := hsorted.2.2 message hearlier last (by simp)
      have hid : message.id = last.id := congrArg HistoryItem.messageId hitem
      omega
  · rintro ⟨hownLast, hlastOwn⟩
    have hrole := fun message hrecent => husers message (history.recent_subset hrecent)
    unfold OwnIsLast LastIsOwn at *
    unfold seeded seedItems messagesToHistoryItems
    congr 1
    rcases List.eq_nil_or_concat' history.recent with hnone | ⟨init, last, hrecent⟩
    · simp [hnone, withoutLastUser]
    · rw [hrecent] at hrole hownLast hlastOwn ⊢
      rw [List.dropLast_concat] at hownLast
      have hothers : (init.filter fun message => message.id ≠ own).filter Message.isReplayable =
          init.filter Message.isReplayable := by
        rw [List.filter_filter]
        refine List.filter_congr fun message hmem => ?_
        cases hreplayable : message.isReplayable with
        | false => rfl
        | true => simpa using hownLast message hmem hreplayable
      rw [withoutLastUser_concat, List.filter_append, List.filter_append, hothers]
      by_cases huser : last.role = .user
      · have hown := hlastOwn last (by simp) huser
        cases hreplayable : last.isReplayable with
        | false => by_cases hsame : last.id = own <;> simp [huser, hsame, hreplayable]
        | true => simp [huser, hown hreplayable]
      · have hother : last.id ≠ own := fun his => huser (hrole last (by simp) his)
        simp [huser, hother, List.filter_append]

end History

/-! ### What each part of a trace owes -/

section Trace

variable {history : History} {own : Nat} {before : List Sent}

/-- A turn on a thread that nothing was sent to. -/
theorem seededAt_turnStart_bare (hbare : sinceStart threadId before = some []) :
    SeededAt history own before (.turnStart threadId) ↔ history.NoOthers own := by
  rw [← History.seedItems_eq_nil]
  simp only [SeededAt, hbare, Option.some.injEq, forall_eq', injections, List.filterMap_nil]
  by_cases hnone : seedItems history own = [] <;> simp [hnone]

theorem seededAt_turnStart_foreign (hforeign : sinceStart threadId before = none) :
    SeededAt history own before (.turnStart threadId) := by
  intro since hcreated
  rw [hforeign] at hcreated
  cases hcreated

theorem seededAt_turnStart_injected {items : List HistoryItem} (hitems : items ≠ [])
    (hinjected : sinceStart threadId before = some [.injectItems threadId items]) :
    SeededAt history own before (.turnStart threadId) ↔ items = seedItems history own := by
  simp only [SeededAt, hinjected, Option.some.injEq, forall_eq', injections, List.filterMap_cons,
    Sent.injected, if_true, List.filterMap_nil]
  by_cases hnone : seedItems history own = []
  · simp [hnone, hitems]
  · simp [hnone]

/-- A second thread is started for the turn. -/
def Answers.opensAgain (answers : Answers) : Bool :=
  answers.retried && (started answers.startAgain).isSome

theorem turnRequests_seeded (answers : Answers) :
    SeededAfter history own before (answers.turnRequests threadId) ↔
      SeededAt history own before (.turnStart threadId) ∧
        (answers.opensAgain = true → history.NoOthers own) := by
  unfold Answers.turnRequests Answers.opensAgain
  cases answers.retried with
  | false => simp [SeededAfter]
  | true =>
      cases started answers.startAgain with
      | none => simp [SeededAfter, SeededAt]
      | some again =>
          have hbare : sinceStart again
              (before ++ [.turnStart threadId] ++ [.start (some again)]) = some [] := by
            rw [sinceStart_concat, if_pos rfl]
          simp only [if_true, Option.toList_some, List.map_cons, List.map_nil, SeededAfter,
            seededAt_turnStart_bare hbare]
          simp [SeededAt]

theorem turnRequests_seeded_bare (answers : Answers)
    (hbare : sinceStart threadId before = some []) :
    SeededAfter history own before (answers.turnRequests threadId) ↔ history.NoOthers own := by
  rw [turnRequests_seeded, seededAt_turnStart_bare hbare]
  exact and_iff_left_of_imp fun hnone _ => hnone

/-- The thread that is started because the first has no id is not seeded. -/
theorem unnamedRequests_seeded (answers : Answers) :
    SeededAfter history own before answers.unnamedRequests ↔
      ((started answers.startUnnamed).isSome = true → history.NoOthers own) := by
  unfold Answers.unnamedRequests
  cases started answers.startUnnamed with
  | none => simp [SeededAfter]
  | some threadId =>
      have hbare : sinceStart threadId (before ++ [.start (some threadId)]) = some [] := by
        rw [sinceStart_concat, if_pos rfl]
      simp [SeededAfter, turnRequests_seeded_bare answers hbare]

end Trace

namespace Opening

variable {opening : Opening} {name : String}

/-- The injection raises, and ends the call. -/
def InjectionRaises (opening : Opening) : Prop :=
  opening.answers.inject = .raised ∧
    ∃ message ∈ withoutLastUser opening.history.recent, message.isReplayable

/-- What the thread that is started first needs. It is not seeded under the stored id, nor under
one that is false; and with the id `None` it is not the one that the turn is started on. -/
def SeedsFirst (opening : Opening) (threadId : ThreadId) : Prop :=
  if threadId = .null then
    (started opening.answers.startUnnamed).isSome = true →
      opening.history.NoOthers opening.ownMessageId
  else if .ofStored opening.storedThreadId = threadId ∨ threadId.truthy = false then
    opening.history.NoOthers opening.ownMessageId
  else
    opening.history.OwnIsLast opening.ownMessageId ∧
      (opening.history.NoOthers opening.ownMessageId ∨ opening.InjectionRaises ∨
        opening.history.LastIsOwn opening.ownMessageId ∧ opening.answers.opensAgain = false)

theorem injects_eq_false :
    opening.injects threadId = false ↔
      (.ofStored opening.storedThreadId = threadId ∨ threadId.truthy = false) ∨
        opening.history.seeded = [] := by
  simp only [injects, decide_eq_false_iff_not, not_and_or, not_not, or_assoc, Bool.not_eq_true]

theorem injectionRaises_iff :
    opening.InjectionRaises ↔
      opening.answers.inject = .raised ∧ opening.history.seeded ≠ [] := by
  rw [InjectionRaises, History.seeded, Ne, History.messagesToHistoryItems_eq_nil]
  push Not
  rfl

theorem seedsFirst_nothing (hnamed : threadId ≠ .null)
    (hnothing : opening.injects threadId = false) :
    opening.SeedsFirst threadId ↔ opening.history.NoOthers opening.ownMessageId := by
  unfold SeedsFirst
  rw [if_neg hnamed]
  by_cases hknown : .ofStored opening.storedThreadId = threadId ∨ threadId.truthy = false
  · rw [if_pos hknown]
  · have hempty := (injects_eq_false.1 hnothing).resolve_left hknown
    rw [if_neg hknown, injectionRaises_iff, ← History.seedItems_eq_nil]
    constructor
    · rintro ⟨hownLast, hnone | ⟨-, hsome⟩ | ⟨hlastOwn, -⟩⟩
      · exact hnone
      · exact absurd hempty hsome
      · rw [← (History.seeded_eq_seedItems opening.own_is_user).2 ⟨hownLast, hlastOwn⟩]
        exact hempty
    · intro hnone
      refine ⟨(History.seeded_without_own opening.own_is_user).1 ?_, .inl hnone⟩
      simp [hempty]

theorem seedsFirst_injects (hinjects : opening.injects threadId = true) :
    opening.SeedsFirst threadId ↔
      opening.history.OwnIsLast opening.ownMessageId ∧
        (opening.answers.inject = .raised ∨
          opening.history.seeded = seedItems opening.history opening.ownMessageId ∧
            (opening.answers.opensAgain = true →
              opening.history.NoOthers opening.ownMessageId)) := by
  obtain ⟨hfresh, htruthy, hseeded⟩ := of_decide_eq_true hinjects
  have hnamed : threadId ≠ .null := by
    rintro rfl
    cases htruthy
  rw [SeedsFirst, if_neg hnamed, if_neg (not_or.2 ⟨hfresh, by simp [htruthy]⟩),
    injectionRaises_iff, History.seeded_eq_seedItems opening.own_is_user]
  refine and_congr_right fun hownLast => ?_
  have hothers : ¬opening.history.NoOthers opening.ownMessageId := by
    intro hnone
    have hlastOwn : opening.history.LastIsOwn opening.ownMessageId :=
      fun last hlast _ hreplayable => hnone last (List.mem_of_getLast? hlast) hreplayable
    rw [(History.seeded_eq_seedItems opening.own_is_user).2 ⟨hownLast, hlastOwn⟩] at hseeded
    exact hseeded (History.seedItems_eq_nil.2 hnone)
  simp [hothers, hseeded, hownLast]

theorem seedRequests_seeded {before : List Sent}
    (hbare : sinceStart threadId before = some []) :
    SeededAfter opening.history opening.ownMessageId before (opening.seedRequests threadId) ↔
      opening.SeedsFirst threadId := by
  unfold seedRequests Answers.beginRequests
  by_cases hnull : threadId = .null
  · have hnothing : opening.injects threadId = false := by simp [injects, hnull, ThreadId.truthy]
    rw [hnothing, if_neg Bool.false_ne_true, if_pos hnull, unnamedRequests_seeded, SeedsFirst,
      if_pos hnull]
  simp only [hnull, if_false]
  cases hinjects : opening.injects threadId with
  | false =>
      rw [if_neg Bool.false_ne_true, seedsFirst_nothing hnull hinjects]
      exact turnRequests_seeded_bare _ hbare
  | true =>
      have hseeded := (of_decide_eq_true hinjects).2.2
      have hinjected : sinceStart threadId
          (before ++ [.injectItems threadId opening.history.seeded]) =
            some [.injectItems threadId opening.history.seeded] := by
        rw [sinceStart_concat, if_neg (by simp), hbare]
        rfl
      have hleftOut := History.seeded_without_own opening.own_is_user
      rw [seedsFirst_injects hinjects]
      by_cases hraised : opening.answers.inject = .raised
      · simp [hraised, SeededAfter, seededAt_injectItems, hbare, hleftOut]
      · simp [hraised, SeededAfter, seededAt_injectItems, hbare, hleftOut, turnRequests_seeded,
          seededAt_turnStart_injected hseeded hinjected]

theorem startRequests_seeded {before : List Sent} :
    SeededAfter opening.history opening.ownMessageId before opening.startRequests ↔
      ∀ threadId, started opening.answers.start = some threadId →
        opening.SeedsFirst threadId := by
  unfold startRequests
  cases started opening.answers.start with
  | none => simp [SeededAfter]
  | some threadId =>
      have hbare : sinceStart threadId (before ++ [.start (some threadId)]) = some [] := by
        rw [sinceStart_concat, if_pos rfl]
      simp [SeededAfter, seedRequests_seeded hbare]

/-- When the fresh threads of a call are seeded as they should be. -/
def SeedsWell (opening : Opening) : Prop :=
  (opening.initial = none ∨ opening.answers.resume.lost = true →
    ∀ threadId, started opening.answers.start = some threadId → opening.SeedsFirst threadId) ∧
  (opening.initial ≠ none ∧ opening.answers.resume = .ok () → opening.answers.opensAgain = true →
    opening.history.NoOthers opening.ownMessageId)

theorem fresh_threads_seeded (opening : Opening) :
    Seeded opening.history opening.ownMessageId opening.sent ↔ opening.SeedsWell := by
  unfold Seeded SeedsWell
  cases hresumes : opening.initial with
  | none => simp [sent_fresh hresumes, startRequests_seeded]
  | some name =>
      have hforeign : sinceStart (.text name) [.resume (.text name)] = none := rfl
      by_cases hresumed : opening.answers.resume = .ok ()
      · simp [sent_resumed hresumes hresumed, SeededAfter, turnRequests_seeded, Answer.lost,
          seededAt_turnStart_foreign hforeign, hresumed]
      · by_cases hlost : opening.answers.resume.lost = true
        · simp [sent_refused hresumes hresumed, SeededAfter, startRequests_seeded, hresumed, hlost]
        · simp [sent_refused hresumes hresumed, SeededAfter, hresumed, hlost]

/-- The sidecar resumes a thread that it does not know when the turn starts. -/
def stale : Opening where
  storedThreadId := some "a"
  threadReuseEnabled := true
  quarantined _ := false
  history := ⟨[⟨1, .assistant, "Hello"⟩, ⟨2, .user, "Go on"⟩], by decide⟩
  ownMessageId := 2
  own_is_user := by decide
  answers :=
    { resume := .ok ()
      start := .ok (some (.text "b"))
      inject := .ok ()
      startUnnamed := .ok (some (.text "b"))
      turnStart := .error ⟨-32600, "thread not found: a"⟩
      startAgain := .ok (some (.text "c"))
      turnStartAgain := .ok () }

theorem stale_sent :
    stale.sent = [.resume (.text "a"), .turnStart (.text "a"), .start (some (.text "c")),
      .turnStart (.text "c")] := by
  have hlost : isThreadNotFound ⟨-32600, "thread not found: a"⟩ = true := by decide +kernel
  have hrequests : stale.answers.turnRequests (.text "a") =
      [.turnStart (.text "a"), .start (some (.text "c")), .turnStart (.text "c")] := by
    simp [Answers.turnRequests, Answers.retried, stale, hlost, started]
  rw [sent_resumed rfl rfl, hrequests]

/-- The second thread gets the turn without the message before it. -/
theorem second_thread_unseeded :
    ¬Seeded stale.history stale.ownMessageId stale.sent := by
  rw [stale_sent]
  intro hseeded
  have hbare := hseeded.2.2.2.1 [] rfl
  have hitems : seedItems stale.history stale.ownMessageId ≠ [] := by decide
  rw [if_neg hitems] at hbare
  cases hbare

end Opening
end CodexServer.Seeding
