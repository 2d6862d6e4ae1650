import CodexServer.Outcome
import CodexServer.Proof.Awaits
import CodexServer.Proof.CodexTurn

/-!
# The outcomes of a turn on the two surfaces

A run in which nothing fails on our side asks for one outcome. What that is depends on the events of
the client and on how it ends, and both surfaces see to it in their own way.
-/

open Async
open Program (Move Runs recorder record monotone_record)

namespace CodexServer.Outcome

open Coalescing (clientOf smooth)

variable {cfg : ExecConfig} {turn : TurnRow} {store : MessageDraft → AssistantMessage}
  {ending : Except Exn Unit} {events : List CodexEvent} {moves : List ExecMove}

/-! ### The web: the frames of the stream -/

/-- What the hot loop notes down about a frame. -/
def advance (locals : ExecLocals) (frame : ChatEvent) : ExecLocals :=
  match terminalOf frame with
  | some (status, code, detail) =>
      { locals with
        terminalPublished := true
        terminalStatus := some status
        terminalError := if status = .failed then (code, detail) else locals.terminalError }
  | none => locals

theorem calm_smooth {op : Op} {answer : Except Fault op.Val}
    (h : calm store (.did op answer) = true) : smooth store (.did op answer) = true := by
  unfold calm at h
  split at h
  · rename_i heq
    cases heq
    rfl
  · rename_i heq
    cases heq
    rfl
  · rename_i heq
    cases heq
    rfl
  · rename_i heq
    cases heq
    exact h
  · rename_i heq
    cases heq

theorem forwardFrame_runs (frame : ChatEvent) (locals : ExecLocals)
    {result : Except Exn (Option Unit) × ExecLocals}
    (hrun : Runs (forwardFrame cfg frame locals) moves result)
    (hcalm : moves.all (calm store) = true) : result = (.ok none, advance locals frame) := by
  have hspec : Async.wp recorder record (forwardFrame cfg frame)
      (fun outcome later moves => moves.all (calm store) = true →
        (outcome, later) = (.ok none, advance locals frame)) locals [] := by
    unfold forwardFrame publish
    refine (wp_await_bind _ _).mpr ⟨trivial, fun lost => ?_, fun _ h => by cases h⟩
    cases lost with
    | true => exact fun h => by cases h
    | false =>
        rw [wp_ite, if_neg Bool.false_ne_true, wp_bind]
        refine (wp_await_bind _ _).mpr ⟨trivial, fun eventId => ?_, fun _ h => by cases h⟩
        refine (wp_await_bind _ _).mpr ⟨trivial, fun _ => ?_, fun _ h => by cases h⟩
        rw [wp_pure, either_ok]
        refine (wp_await_bind _ _).mpr ⟨trivial, fun _ => ?_, fun _ h => by cases h⟩
        unfold advance
        cases terminalOf frame <;> exact fun _ => rfl
  exact hrun.promised hspec hcalm

/-- The frames have settled the turn, whose execution is the owner as before. -/
structure Settles (locals : ExecLocals) (status : TerminalStatus) (final : ExecLocals) : Prop where
  status : final.terminalStatus = some status
  skip : final.redeliverySkip = locals.redeliverySkip

theorem foldl_advance_passing {passing : List ChatEvent}
    (hpassing : ∀ frame ∈ passing, terminalOf frame = none) (later : List ChatEvent)
    (locals : ExecLocals) :
    (passing ++ later).foldl advance locals = later.foldl advance locals := by
  induction passing with
  | nil => rfl
  | cons frame rest ih =>
      have hnone : advance locals frame = locals := by
        unfold advance
        rw [hpassing frame List.mem_cons_self]
      rw [List.cons_append, List.foldl_cons, hnone]
      exact ih fun later hmem => hpassing later (List.mem_cons_of_mem _ hmem)

theorem flushed_passing (pending : List String) :
    ∀ frame ∈ Coalescing.flushed pending, terminalOf frame = none := by
  intro frame hmem
  unfold Coalescing.flushed at hmem
  split at hmem
  · cases hmem
  · rw [List.mem_singleton.mp hmem]
    rfl

/-- The way out without a done or an error event. -/
theorem exitFrames_settles (collector : StreamCollector) (hopen : collector.doneSeen = false)
    (hending : ending ≠ .error (.fault .cancelled)) (locals : ExecLocals) :
    Settles locals (webStatus ending [])
      ((Coalescing.exitFrames cfg turn store collector (ending.map fun _ => none)).foldl advance
        locals) := by
  match ending with
  | .ok () =>
      have hdropped : Coalescing.exitFrames cfg turn store collector (.ok none) =
          [errorEvent CodexErrorCode.streamDropped
            (some "Codex stream ended without completion")] := by
        simp [Coalescing.exitFrames, hopen]
      change Settles locals _ ((Coalescing.exitFrames cfg turn store collector (.ok none)).foldl _ _)
      rw [hdropped]
      exact ⟨rfl, rfl⟩
  | .error (.codexTurnTerminal status raw) => cases status <;> exact ⟨rfl, rfl⟩
  | .error (.fault fault) =>
      cases fault with
      | cancelled => exact absurd rfl hending
      | redisError | timeout | rpcError | staleTurnStream | staleSidecarTurn | queueError | other =>
          exact ⟨rfl, rfl⟩

/-- **The web.** The frames of a stream settle the turn as its events and its ending say. -/
theorem frames_settle (limit : Nat) (hending : ending ≠ .error (.fault .cancelled))
    (pending : List String) (collector : StreamCollector) (hopen : collector.doneSeen = false)
    (locals : ExecLocals) :
    Settles locals (webStatus ending events)
      ((Coalescing.loopFrames limit pending events ++
        Coalescing.exitFrames cfg turn store (Coalescing.collected collector events)
          (Coalescing.loopOutcome ending events)).foldl advance locals) := by
  have hpass {frames later : List ChatEvent} {status : TerminalStatus}
      (hpassing : ∀ frame ∈ frames, terminalOf frame = none)
      (h : Settles locals status (later.foldl advance locals)) :
      Settles locals status ((frames ++ later).foldl advance locals) := by
    rwa [foldl_advance_passing hpassing]
  induction events generalizing pending collector with
  | nil => exact exitFrames_settles collector hopen hending locals
  | cons event rest ih =>
      cases event with
      | token delta =>
          have hflushed := flushed_passing (pending ++ [delta])
          simp only [Coalescing.loopFrames]
          split
          · split
            · rw [List.append_assoc]
              exact hpass hflushed (ih [] _ hopen)
            · exact ih _ _ hopen
          · rw [List.append_assoc, List.append_assoc]
            refine hpass (flushed_passing pending) (hpass ?_ (ih [] _ hopen))
            exact fun frame hmem => List.mem_singleton.mp hmem ▸ rfl
      | toolCall record =>
          simp only [Coalescing.loopFrames, List.append_assoc]
          refine hpass (flushed_passing pending) (hpass ?_ (ih [] _ hopen))
          exact fun frame hmem => List.mem_singleton.mp hmem ▸ rfl
      | toolResult name text attachments error =>
          simp only [Coalescing.loopFrames, List.append_assoc]
          refine hpass (flushed_passing pending) (hpass ?_ (ih [] _ hopen))
          exact fun frame hmem => List.mem_singleton.mp hmem ▸ rfl
      | error code detail =>
          simp only [Coalescing.loopFrames, List.append_assoc]
          exact hpass (flushed_passing pending) ⟨rfl, rfl⟩
      | done finalText =>
          refine hpass (flushed_passing pending) ?_
          exact ⟨rfl, rfl⟩

/-! ### The web: the stream asks for no outcome -/

def finalizes : Op → Bool
  | .finalizeOnce .. => true
  | _ => false

theorem unfinal_of_loop {op : Op} (hop : isLoopOp op = true) : finalizes op = false := by
  cases op <;> first | rfl | cases hop

theorem clientOf_only (Allowed : Op → Prop) : (clientOf ending events).Only Allowed := by
  induction events with
  | nil => exact trivial
  | cons event rest ih => exact ih

theorem hotLoop_unfinal : Awaits (finalizes · = false) (Async.forEach (forwardFrame cfg)
    (Async.generator (streamFrom cfg turn (clientOf ending events)) {})) := by
  have hstream : OfStream (streamFrom cfg turn (clientOf ending events)) :=
    streamFrom_ofStream (clientOf_only _)
  exact (hotLoop_awaits (hstream.generator {})).mono fun _ => unfinal_of_loop

theorem finals_of_unfinal {Local α : Type} {code : Code Empty Local α}
    (h : Awaits (finalizes · = false) code)
    {locals : Local} {result : Except Exn α × Local} (hrun : Runs (code locals) moves result) :
    finals moves = [] := by
  refine List.filterMap_eq_nil_iff.mpr fun move hmem => ?_
  cases move with
  | did op answer =>
      have hop : finalizes op = false := (h locals).runs hrun hmem
      cases op <;> first | rfl | cases hop
  | yielded out => exact nomatch out

/-! ### Code in which nothing fails -/

/-- Something has failed on our side. -/
def Failed (store : MessageDraft → AssistantMessage) (moves : List ExecMove) : Prop :=
  moves.all (calm store) = false

/-- Unless something has failed, this holds and no outcome has been asked for. -/
def Unsettled {Local : Type} (store : MessageDraft → AssistantMessage) (P : Local → Prop)
    (locals : Local) (moves : List ExecMove) : Prop :=
  (P locals ∧ finals moves = []) ∨ Failed store moves

abbrev CalmTriple {Local α : Type} (store : MessageDraft → AssistantMessage) (pre : Local → Prop)
    (code : Code Empty Local α) (post : α → Local → Prop) (raises : Exn → Local → Prop) : Prop :=
  Triple recorder record (Unsettled store pre) code (fun value => Unsettled store (post value))
    fun error => Unsettled store (raises error)

section

variable {Local α β : Type} {pre : Local → Prop} {locals : Local} {code : Code Empty Local α}
  {post : α → Local → Prop} {raises : Exn → Local → Prop}

theorem Failed.append (h : Failed store moves) (move : ExecMove) : Failed store (moves ++ [move]) := by
  unfold Failed at h ⊢
  rw [List.all_append, h]
  rfl

theorem failed_append {move : ExecMove} (h : calm store move = false) :
    Failed store (moves ++ [move]) := by
  simp [Failed, h]

theorem failed_stays (code : Code Empty Local α) (h : Failed store moves) :
    Async.wp recorder record code (fun _ _ => Failed store) locals moves := by
  unfold Async.wp
  generalize code locals = program
  induction program generalizing moves with
  | ret result => exact h
  | call op next ih => exact ⟨trivial, fun answer => ih answer (h.append _)⟩
  | emit out => exact nomatch out

/-- It is enough to look at runs in which nothing has failed before. -/
theorem calm_intro
    (h : ∀ (locals : Local) (moves : List ExecMove), pre locals → finals moves = [] →
      Async.wp recorder record code (either (fun value => Unsettled store (post value))
        fun error => Unsettled store (raises error)) locals moves) :
    CalmTriple store pre code post raises := by
  intro locals moves hpre
  rcases hpre with ⟨hpre, hnone⟩ | hfailed
  · exact h locals moves hpre hnone
  · refine wp_mono monotone_record (failed_stays code hfailed) ?_
    intro outcome locals moves hfailed
    cases outcome <;> exact .inr hfailed

theorem finals_did {op : Op} (hop : finalizes op = false) (answer : Except Fault op.Val)
    (hnone : finals moves = []) : finals (moves ++ [.did op answer]) = [] := by
  have hlast : finals [.did op answer] = [] := by
    cases op <;> first | rfl | cases hop
  rw [finals_append, hnone, hlast]
  rfl

theorem calm_pure (value : α) (hvalue : ∀ locals, pre locals → post value locals) :
    CalmTriple store pre (pure value) post raises :=
  fun locals _ h => h.imp (And.imp_left (hvalue locals)) id

theorem calm_getLocal :
    CalmTriple store pre (Async.getLocal : Code Empty Local Local)
      (fun value locals => value = locals ∧ pre locals) raises :=
  fun _ _ h => h.imp (And.imp_left fun h => ⟨rfl, h⟩) id

theorem calm_modifyLocal (change : Local → Local) {goal : Local → Prop}
    (hchange : ∀ locals, pre locals → goal (change locals)) :
    CalmTriple store pre (Async.modifyLocal change) (fun _ => goal) raises :=
  fun locals _ h => h.imp (And.imp_left (hchange locals)) id

theorem calm_await {op : Op} (hop : finalizes op = false)
    (hraises : ∀ fault, calm store (.did op (.error fault)) = false) :
    CalmTriple store pre (await op) (fun _ => pre) raises := by
  refine calm_intro fun _ _ hpre hnone => (wp_await _).mpr ⟨trivial, fun value => ?_, ?_⟩
  · exact .inl ⟨hpre, finals_did hop _ hnone⟩
  · exact fun fault => .inr (failed_append (hraises fault))

theorem calm_orOnRedisError {op : Op} (hop : finalizes op = false) (default : op.Val)
    (hraises : ∀ fault, fault.isRedisError = false →
      calm store (.did op (.error fault)) = false) :
    CalmTriple store pre (orOnRedisError (await op) default) (fun _ => pre) raises := by
  refine calm_intro fun locals moves hpre hnone => ?_
  rw [wp_orOnRedisError]
  refine (wp_await _).mpr ⟨trivial, fun value => .inl ⟨hpre, finals_did hop _ hnone⟩, fun fault => ?_⟩
  cases fault with
  | redisError text => exact .inl ⟨hpre, finals_did hop _ hnone⟩
  | cancelled | timeout | rpcError | staleTurnStream | staleSidecarTurn | queueError | other =>
      exact .inr (failed_append (hraises _ rfl))

theorem CalmTriple.bind (hfirst : CalmTriple store pre code post raises)
    {continuation : α → Code Empty Local β} {goal : β → Local → Prop}
    (hlater : ∀ value, CalmTriple store (post value) (continuation value) goal raises) :
    CalmTriple store pre (code >>= continuation) goal raises :=
  Triple.bind monotone_record hfirst hlater

theorem CalmTriple.ite {condition : Prop} [Decidable condition] {other : Code Empty Local α}
    (h : condition → CalmTriple store pre code post raises)
    (hother : ¬condition → CalmTriple store pre other post raises) :
    CalmTriple store pre (if condition then code else other) post raises := by
  split
  · rename_i hcondition
    exact h hcondition
  · rename_i hcondition
    exact hother hcondition

theorem CalmTriple.tryFinally (h : CalmTriple store pre code post raises)
    {cleanup : Code Empty Local Unit} {goal : α → Local → Prop} {raises' : Exn → Local → Prop}
    (hvalue : ∀ value, CalmTriple store (post value) cleanup (fun _ => goal value) fun _ _ => False)
    (herror : ∀ error, CalmTriple store (raises error) cleanup (fun _ => raises' error)
      fun _ _ => False) :
    CalmTriple store pre (Async.tryFinally code cleanup) goal raises' := by
  intro locals moves hpre
  rw [wp_tryFinally]
  have hnever {error : Exn} {locals : Local} {moves : List ExecMove}
      (h : Unsettled store (fun _ => False) locals moves) :
      Unsettled store (raises' error) locals moves := h.imp (fun h => h.1.elim) id
  refine h.call monotone_record hpre (fun value locals moves hpost => ?_)
    fun error locals moves hraised => ?_
  · exact (hvalue value).call monotone_record hpost (fun _ _ _ h => h) fun _ _ _ => hnever
  · exact (herror error).call monotone_record hraised (fun _ _ _ h => h) fun _ _ _ => hnever

theorem CalmTriple.tryCatch (h : CalmTriple store pre code post raises)
    {handler : Exn → Code Empty Local α} {raises' : Exn → Local → Prop}
    (hhandler : ∀ error, CalmTriple store (raises error) (handler error) post raises') :
    CalmTriple store pre (Async.tryCatch code handler) post raises' := by
  intro locals moves hpre
  rw [wp_tryCatch]
  exact h.call monotone_record hpre (fun _ _ _ h => h) fun error locals moves hraised =>
    hhandler error locals moves hraised

/-- What holds of a value and of an exception, as one. -/
def Outcomes (post : α → Local → Prop) (raises : Exn → Local → Prop) :
    Except Exn α → Local → Prop
  | .ok value => post value
  | .error error => raises error

theorem calm_attempt {raises' : Exn → Local → Prop} (h : CalmTriple store pre code post raises) :
    CalmTriple store pre (Async.attempt code) (Outcomes post raises) raises' := by
  intro locals moves hpre
  rw [wp_attempt]
  exact h.call monotone_record hpre (fun _ _ _ h => h) fun _ _ _ h => h

/-- A fact that does not depend on the variables. -/
theorem calm_assume {fact : Prop} (hgiven : ∀ locals, pre locals → fact)
    (h : fact → CalmTriple store pre code post raises) : CalmTriple store pre code post raises :=
  calm_intro fun locals moves hpre hnone =>
    h (hgiven locals hpre) locals moves (.inl ⟨hpre, hnone⟩)

theorem calm_pre {pre' : Local → Prop} (h : CalmTriple store pre code post raises)
    (hpre : ∀ locals, pre' locals → pre locals) : CalmTriple store pre' code post raises :=
  fun locals moves hgiven => h locals moves (hgiven.imp (And.imp_left (hpre locals)) id)

/-- A branch that a calm run does not take. -/
theorem calm_absurd (hpre : ∀ locals, ¬pre locals) : CalmTriple store pre code post raises :=
  calm_intro fun locals _ h _ => absurd h (hpre locals)

/-- A command that fails unless it is answered `True`. -/
theorem calm_taken (op : Op) (hop : finalizes op = false) (taken : op.Val → Bool) (default : op.Val)
    (hrefused : ∀ value, taken value = false → calm store (.did op (.ok value)) = false)
    (hraises : ∀ fault, calm store (.did op (.error fault)) = false) :
    CalmTriple store pre (orOnRedisError (await op) default)
      (fun value locals => taken value = true ∧ pre locals) raises := by
  refine calm_intro fun locals moves hpre hnone => ?_
  rw [wp_orOnRedisError]
  refine (wp_await _).mpr ⟨trivial, fun value => ?_, fun fault => ?_⟩
  · cases htaken : taken value with
    | true => exact .inl ⟨⟨htaken, hpre⟩, finals_did hop _ hnone⟩
    | false => exact .inr (failed_append (hrefused value htaken))
  · cases fault <;> exact .inr (failed_append (hraises _))

theorem holdTurnLocks_calm (chatId turnId : Nat) {code : LockAcquireOutcome → Code Empty Local Unit}
    {post : Unit → Local → Prop} (hcode : CalmTriple store pre (code .acquired) post raises) :
    CalmTriple store pre (Locks.holdTurnLocks chatId turnId code) post raises := by
  have hacquire : CalmTriple store pre (Locks.tryAcquireActive chatId turnId)
      (fun taken locals => taken = true ∧ pre locals) raises :=
    calm_taken (.setActiveNx chatId turnId) rfl id false (fun _ hrefused => hrefused) fun _ => rfl
  have hrelease {kept : Local → Prop} : CalmTriple store kept (do
      let _ ← Locks.releaseActive chatId turnId
      pure ()) (fun _ => kept) fun _ _ => False :=
    (calm_orOnRedisError rfl _ fun _ _ => rfl).bind fun _ => calm_pure () fun _ h => h
  refine hacquire.bind fun taken => CalmTriple.ite (fun htaken => ?_) fun hnot => ?_
  · exact calm_pre (hcode.tryFinally (fun _ => hrelease) fun _ => hrelease) fun _ h => h.2
  · exact calm_absurd fun _ h => hnot h.1

end

/-! ### The web: the execution -/

/-- The execution is the owner of the turn. -/
def Owns (locals : ExecLocals) : Prop := locals.redeliverySkip = false

/-- The execution knows the outcome. -/
def Knows (status : TerminalStatus) (locals : ExecLocals) : Prop :=
  locals.terminalStatus = some status ∧ locals.redeliverySkip = false

theorem acquire_calm {pre : ExecLocals → Prop} {raises : Exn → ExecLocals → Prop}
    (turnId holder : Nat) :
    CalmTriple store pre (Lease.acquire turnId holder)
      (fun taken locals => taken = true ∧ pre locals) raises := by
  have htaken : CalmTriple store pre (orOnRedisError (await (.setLeaseNx turnId holder)) false)
      (fun taken locals => taken = true ∧ pre locals) raises :=
    calm_taken (.setLeaseNx turnId holder) rfl id false (fun _ hrefused => hrefused) fun _ => rfl
  refine htaken.bind fun taken => CalmTriple.ite (fun htaken => ?_) fun hnot => ?_
  · exact (calm_await rfl fun _ => rfl).bind fun _ => calm_pure true fun _ h => ⟨rfl, h.2⟩
  · exact calm_absurd fun _ h => hnot h.1

theorem calm_of_append {later : List ExecMove} (h : ¬Failed store (moves ++ later)) :
    later.all (calm store) = true := by
  unfold Failed at h
  rw [List.all_append, Bool.and_eq_false_iff, not_or] at h
  exact Bool.not_eq_false _ ▸ h.2

theorem outputs_eq_frames (moves : List StreamMove) :
    Program.outputs moves = Coalescing.frames moves := by
  unfold Program.outputs Coalescing.frames
  refine List.filterMap_congr fun move _ => ?_
  cases move <;> rfl

theorem exitResult_loopOutcome (hending : ending ≠ .error (.fault .cancelled)) :
    Coalescing.exitResult (Coalescing.loopOutcome ending events) = .ok () := by
  induction events with
  | nil =>
      match ending with
      | .ok () => rfl
      | .error (.codexTurnTerminal status raw) => rfl
      | .error (.fault fault) =>
          cases fault with
          | cancelled => exact absurd rfl hending
          | redisError | timeout | rpcError | staleTurnStream | staleSidecarTurn | queueError
          | other => rfl
  | cons event rest ih =>
      cases event with
      | token | toolCall | toolResult => exact ih
      | error | done => rfl

/-- The hot loop goes through the stream to its end. -/
theorem hotLoop_calm (hending : ending ≠ .error (.fault .cancelled)) :
    CalmTriple store Owns
      (Async.forEach (forwardFrame cfg)
        (Async.generator (streamFrom cfg turn (clientOf ending events)) {}))
      (fun _ => Knows (webStatus ending events)) fun _ _ => False := by
  refine calm_intro fun locals before howns hnone => Program.wp_of_runs fun moves result hrun => ?_
  by_cases hfailed : Failed store (before ++ moves)
  · obtain ⟨outcome, final⟩ := result
    cases outcome <;> exact .inr hfailed
  have hcalm : moves.all (calm store) = true := calm_of_append hfailed
  obtain ⟨streamed, ended, hstream, hmem, rfl⟩ :=
    runs_forEach (fun frame locals moves result => forwardFrame_runs frame locals) hrun hcalm
  unfold Async.generator at hstream
  rw [Program.runs_bind] at hstream
  obtain ⟨_, ⟨outcome, state⟩, _, hfrom, hret, rfl⟩ := hstream
  cases hret
  rw [List.append_nil] at hmem ⊢
  have hsmooth : ∀ move ∈ _, smooth store move = true := fun move hmove => by
    cases move with
    | did op answer => exact calm_smooth (List.all_eq_true.mp hcalm _ (hmem op answer hmove))
    | yielded frame => rfl
  obtain ⟨hframes, hresult⟩ :=
    Coalescing.streamFrom_frames hfrom (List.all_eq_true.mpr hsmooth)
  rw [exitResult_loopOutcome hending] at hresult
  subst hresult
  have hsettles := @frames_settle cfg turn store ending events cfg.coalesceBytes hending [] {} rfl locals
  rw [← hframes, ← outputs_eq_frames] at hsettles
  have hquiet : finals (before ++ moves) = [] := by
    rw [finals_append, hnone, finals_of_unfinal hotLoop_unfinal hrun]
    rfl
  exact .inl ⟨⟨hsettles.status, hsettles.skip.trans howns⟩, hquiet⟩

/-- The connection and the stream. -/
theorem runCodexTurnOver_calm (hending : ending ≠ .error (.fault .cancelled)) :
    CalmTriple store Owns
      (runCodexTurnOver cfg (Async.generator (streamFrom cfg turn (clientOf ending events)) {}))
      (fun _ => Knows (webStatus ending events)) fun _ _ => False := by
  refine (calm_await rfl fun _ => rfl).bind fun _ => ?_
  have hloop : CalmTriple store Owns
      (do
        let _ ← Async.forEach (forwardFrame cfg)
          (Async.generator (streamFrom cfg turn (clientOf ending events)) {})
        pure ())
      (fun _ => Knows (webStatus ending events)) fun _ _ => False :=
    (hotLoop_calm hending).bind fun _ => calm_pure () fun _ h => h
  exact hloop.tryFinally (fun _ => calm_await rfl fun _ => rfl) fun _ => calm_absurd fun _ h => h

theorem withOutcomeOver_calm (hending : ending ≠ .error (.fault .cancelled)) :
    CalmTriple store Owns
      (withOutcomeOver cfg turn
        (Async.generator (streamFrom cfg turn (clientOf ending events)) {}) .acquired)
      (fun _ => Knows (webStatus ending events)) fun _ _ => False := by
  refine (acquire_calm cfg.turnId cfg.holder).bind fun leased =>
    CalmTriple.ite (fun hleased => ?_) fun hnot => calm_absurd fun _ h => hnot h.1
  have howns : ∀ locals : ExecLocals, leased = true ∧ Owns locals →
      Owns { locals with leaseHolder := some cfg.holder } := fun _ h => h.2
  refine (calm_modifyLocal _ howns).bind fun _ => ?_
  refine (calm_await rfl fun _ => rfl).bind fun _ => ?_
  have hkept : ∀ locals : ExecLocals, Owns locals → Owns { locals with heartbeatTask := true } :=
    fun _ h => h
  exact (calm_modifyLocal _ hkept).bind fun _ => runCodexTurnOver_calm hending

theorem teardown_calm {status : TerminalStatus} :
    CalmTriple store (Knows status) (teardown cfg) (fun _ => Knows status) fun _ _ => False := by
  refine calm_getLocal.bind fun locals => CalmTriple.ite (fun _ => ?_) fun _ =>
    calm_pure () fun _ h => h.2
  have hstop : CalmTriple store (Knows status) (Async.attempt (await .stopHeartbeat))
      (Outcomes (fun _ => Knows status) fun _ => Knows status) fun _ _ => False :=
    calm_attempt (calm_await rfl fun _ => rfl)
  have hknows : ∀ outcome locals, Outcomes (fun _ : Unit => Knows status) (fun _ => Knows status)
      outcome locals → Knows status locals := by
    intro outcome locals h
    cases outcome <;> exact h
  refine (calm_pre hstop fun _ h => h.2).bind fun outcome => calm_pre ?_ (hknows outcome)
  cases locals.leaseHolder with
  | none => exact calm_pure () fun _ h => h
  | some holder =>
      refine CalmTriple.bind ?_ fun _ => calm_pure () fun _ h => h
      exact (calm_await rfl fun _ => rfl).bind fun _ => calm_orOnRedisError rfl _ fun _ _ => rfl

theorem publishSafetyTerminal_calm {status : TerminalStatus} :
    CalmTriple store (Knows status) (publishSafetyTerminal cfg) (fun _ => Knows status)
      fun _ _ => False := by
  refine calm_getLocal.bind fun locals => CalmTriple.ite (fun _ => calm_pure () fun _ h => h.2)
    fun _ => ?_
  have hpublish (frame : ChatEvent) : CalmTriple store (Knows status) (do
      let _ ← publish cfg.turnId frame
      pure ()) (fun _ => Knows status) fun _ _ => False := by
    refine CalmTriple.bind ?_ fun _ => calm_pure () fun _ h => h
    exact (calm_await rfl fun _ => rfl).bind fun _ => (calm_await rfl fun _ => rfl).bind fun _ =>
      calm_pure _ fun _ h => h
  exact (calm_pre (hpublish _) fun _ h => h.2).tryCatch fun _ => calm_absurd fun _ h => h

/-- Unless something has failed, this outcome has been asked for. -/
def Settled (store : MessageDraft → AssistantMessage) (status : TerminalStatus)
    (moves : List ExecMove) : Prop :=
  finals moves = [status] ∨ Failed store moves

theorem settled_append {status : TerminalStatus} (h : Settled store status moves) {op : Op}
    (hop : finalizes op = false) (answer : Except Fault op.Val) :
    Settled store status (moves ++ [.did op answer]) := by
  have hlast : finals [.did op answer] = [] := by
    cases op <;> first | rfl | cases hop
  refine h.imp (fun h => ?_) fun h => h.append _
  rw [finals_append, h, hlast, List.append_nil]

/-- The outcome, and the slot of the user. -/
theorem finish_settles {status : TerminalStatus} {locals : ExecLocals}
    (h : Unsettled store (Knows status) locals moves) :
    Async.wp recorder record (do
      finalizeTurn cfg
      let locals ← Async.getLocal
      if locals.redeliverySkip then pure () else releaseTurn cfg)
      (fun _ _ => Settled store status) locals moves := by
  rcases h with ⟨⟨hstatus, howns⟩, hnone⟩ | hfailed
  · unfold finalizeTurn
    simp only [wp_bind, wp_getLocal, either_ok, hstatus, howns, Bool.false_eq_true, if_false]
    refine (wp_await _).mpr ⟨trivial, fun won => ?_, fun fault => .inr (failed_append rfl)⟩
    have hsettled : Settled store status (moves ++ [.did (.finalizeOnce cfg.turnId status
        locals.terminalError.1 locals.terminalError.2) (.ok won)]) := by
      refine .inl ?_
      rw [finals_append, hnone]
      rfl
    rw [either_ok, wp_pure, either_ok, wp_bind, wp_getLocal, either_ok, howns]
    refine (wp_await_bind _ _).mpr ⟨trivial, fun value => ?_,
      fun fault => settled_append hsettled rfl (.error fault)⟩
    have hother : finalizes (.external .decrActive) = false := rfl
    have hgiven : Settled store status _ := settled_append hsettled hother (.ok value)
    rw [wp_ite]
    split
    · exact (wp_await _).mpr ⟨trivial, fun value => settled_append hgiven rfl (.ok value),
        fun fault => settled_append hgiven rfl (.error fault)⟩
    · exact hgiven
  · exact wp_mono monotone_record (failed_stays _ hfailed) fun _ _ _ h => .inr h

/-- **An execution.** Unless something fails on our side it asks for the outcome that the events and
the ending of its client amount to. -/
theorem executeOver_finals {last : Except Exn Unit × ExecLocals}
    (hending : ending ≠ .error (.fault .cancelled))
    (hrun : Runs (executeOver cfg turn
      (Async.generator (streamFrom cfg turn (clientOf ending events)) {}) {}) moves last)
    (hcalm : moves.all (calm store) = true) : finals moves = [webStatus ending events] := by
  have hlocked : CalmTriple store Owns
      (Async.tryCatch (Locks.holdTurnLocks turn.chatId cfg.turnId (withOutcomeOver cfg turn
        (Async.generator (streamFrom cfg turn (clientOf ending events)) {}))) (executionFailed cfg))
      (fun _ => Knows (webStatus ending events)) fun _ _ => False :=
    (holdTurnLocks_calm _ _ (withOutcomeOver_calm hending)).tryCatch fun _ =>
      calm_absurd fun _ h => h
  have hspec : Async.wp recorder record (executeOver cfg turn
      (Async.generator (streamFrom cfg turn (clientOf ending events)) {}))
      (fun _ _ => Settled store (webStatus ending events)) {} [] := by
    unfold executeOver executionFinally
    rw [wp_tryFinally]
    refine hlocked.call monotone_record (.inl ⟨rfl, rfl⟩) (fun _ locals moves h => ?_)
      fun _ locals moves h => ?_
    · rw [wp_bind]
      refine teardown_calm.call monotone_record h (fun _ locals moves h => ?_)
        fun _ _ _ h => .inr (h.resolve_left fun h => h.1)
      rw [either_ok, wp_bind]
      refine publishSafetyTerminal_calm.call monotone_record h (fun _ locals moves h => ?_)
        fun _ _ _ h => .inr (h.resolve_left fun h => h.1)
      exact wp_mono monotone_record (finish_settles h) fun outcome _ _ h => by
        cases outcome <;> exact h
    · have hfailed : Failed store moves := h.resolve_left fun h => h.1
      exact wp_mono monotone_record (failed_stays _ hfailed) fun outcome _ _ h => by
        cases outcome <;> exact .inr h
  rcases hrun.promised hspec with hsettled | hfailed
  · exact hsettled
  · exact absurd hfailed (by simp [Failed, hcalm])

/-! ### Telegram -/

section

variable {context : Telegram.TurnContext} {pre : Telegram.TurnLocals → Prop}
  {raises : Exn → Telegram.TurnLocals → Prop} {collector : StreamCollector}

theorem send_calm : CalmTriple store pre Telegram.send (fun _ => pre) raises :=
  calm_await rfl fun _ => rfl

theorem emitFailure_calm :
    CalmTriple store pre (Telegram.emitFailure context) (fun _ => pre) raises :=
  calm_await rfl fun _ => rfl

theorem sendAndFail_calm :
    CalmTriple store pre (do Telegram.send; Telegram.emitFailure context) (fun _ => pre) raises :=
  send_calm.bind fun _ => emitFailure_calm

theorem showStream_calm :
    CalmTriple store pre (Telegram.showStream context) (fun _ => pre) raises :=
  CalmTriple.ite (fun _ => calm_pure () fun _ h => h) fun _ => send_calm

theorem persistPartial_calm (text : String) :
    CalmTriple store pre (Telegram.persistPartial context text collector) (fun _ => pre) raises :=
  (calm_await rfl fun _ => rfl).bind fun _ => calm_pure () fun _ h => h

theorem persistAnswer_calm (text : String) :
    CalmTriple store pre (Telegram.persistAnswer context text collector) (fun _ => pre) raises :=
  (calm_await rfl fun _ => rfl).bind fun _ => calm_pure () fun _ h => h

theorem handleDone_calm :
    CalmTriple store pre (Telegram.handleDone context collector) (fun _ => pre) raises :=
  CalmTriple.ite (fun _ => sendAndFail_calm) fun _ => send_calm.bind fun _ => persistAnswer_calm _

theorem handleDroppedStream_calm :
    CalmTriple store pre (Telegram.handleDroppedStream context collector) (fun _ => pre) raises :=
  CalmTriple.ite (fun _ => sendAndFail_calm) fun _ =>
    send_calm.bind fun _ => (persistPartial_calm _).bind fun _ => send_calm

theorem interruptBestEffort_calm {Local : Type} {pre : Local → Prop} {raises : Exn → Local → Prop}
    (threadId codexTurnId : String) :
    CalmTriple store pre (interruptBestEffort threadId codexTurnId) (fun _ => pre) raises := by
  refine CalmTriple.ite (fun _ => calm_pure () fun _ h => h) fun _ => ?_
  refine calm_intro fun locals moves hpre hnone => ?_
  rw [wp_exceptException]
  refine (wp_await _).mpr ⟨trivial, fun value => .inl ⟨hpre, finals_did rfl _ hnone⟩, fun fault => ?_⟩
  cases fault with
  | cancelled => exact .inr (failed_append rfl)
  | redisError | timeout | rpcError | staleTurnStream | staleSidecarTurn | queueError | other =>
      exact .inl ⟨hpre, finals_did rfl _ hnone⟩

theorem quarantineThread_calm {Local : Type} {pre : Local → Prop} {raises : Exn → Local → Prop}
    (threadId : String) :
    CalmTriple store pre (quarantineThread threadId) (fun _ => pre) raises := by
  refine CalmTriple.ite (fun _ => calm_pure () fun _ h => h) fun _ => ?_
  refine calm_orOnRedisError rfl _ fun fault hfault => ?_
  cases fault <;> first | rfl | cases hfault

/-- What the loop is left with agrees with the outcome. -/
def Says (ending : Except Exn Unit) (events : List CodexEvent)
    (result : Option Telegram.CodexTurnTerminal) : Prop :=
  match result with
  | some terminal => terminal.status = (telegramStatus ending events).1
  | none => telegramStatus ending events = .failed

/-- The loop is left with what the client has raised after its last event. -/
def Raises (ending : Except Exn Unit) (events : List CodexEvent) (error : Exn) : Prop :=
  ending = .error error ∧ telegramStatus ending events = telegramStatus ending []

/-- What an event is answered with agrees with the outcome, or the outcome is up to the rest. -/
def Handles (ending : Except Exn Unit) (event : CodexEvent) (rest : List CodexEvent)
    (result : Option Telegram.CodexTurnTerminal) : Prop :=
  match result with
  | some terminal => terminal.status = (telegramStatus ending (event :: rest)).1
  | none => telegramStatus ending (event :: rest) = telegramStatus ending rest

theorem handleEvent_calm (event : CodexEvent) (rest : List CodexEvent) :
    CalmTriple store pre (Telegram.handleEvent context event)
      (fun result _ => Handles ending event rest result) raises := by
  have hanswer (result : Option Telegram.CodexTurnTerminal)
      (hresult : Handles ending event rest result) :
      CalmTriple store pre (pure result) (fun result _ => Handles ending event rest result)
        raises :=
    calm_pure result fun _ _ => hresult
  cases event with
  | token delta => exact showStream_calm.bind fun _ => hanswer none rfl
  | toolCall record => exact send_calm.bind fun _ => hanswer none rfl
  | toolResult name text attachments error => exact send_calm.bind fun _ => hanswer none rfl
  | error code detail =>
      have hfailed := hanswer (some ⟨.failed,
        some (if code = "" then CodexErrorCode.codexError else code), detail⟩) rfl
      exact send_calm.bind fun _ => emitFailure_calm.bind fun _ => hfailed
  | done finalText =>
      have hcompleted (collector : StreamCollector) : CalmTriple store pre (do
          Telegram.showStream context
          Telegram.handleDone context collector
          pure (some ⟨.completed, none, none⟩))
          (fun result _ => Handles ending (.done finalText) rest result) raises := by
        have hanswered := hanswer (some ⟨.completed, none, none⟩) rfl
        have hdone : CalmTriple store pre (Telegram.handleDone context collector) (fun _ => pre)
          raises := handleDone_calm
        exact showStream_calm.bind fun _ => hdone.bind fun _ => hanswered
      exact calm_getLocal.bind fun locals => calm_pre (hcompleted _) fun _ h => h.2

theorem streamEvent_calm (event : CodexEvent) (rest : List CodexEvent) :
    CalmTriple store pre (Telegram.streamEvent context event)
      (fun result _ => Handles ending event rest result) raises := by
  have hpublish : CalmTriple store pre
      (orOnRedisError (await (.external .publishBus)) () : Telegram.TelegramCode Unit)
      (fun _ => pre) raises := by
    refine calm_orOnRedisError rfl _ fun fault hfault => ?_
    cases fault <;> first | rfl | cases hfault
  have habsorb : CalmTriple store pre (Async.modifyLocal fun locals : Telegram.TurnLocals =>
      { locals with collector := locals.collector.absorb event }) (fun _ _ => True) raises :=
    calm_modifyLocal _ fun _ _ => trivial
  exact hpublish.bind fun _ => habsorb.bind fun _ => handleEvent_calm event rest

theorem streamEvents_calm (events : List CodexEvent) :
    CalmTriple store pre (Async.forEach (Telegram.streamEvent context) (clientOf ending events))
      (fun result _ => Says ending events result) fun error _ => Raises ending events error := by
  induction events generalizing pre with
  | nil =>
      refine calm_intro fun locals moves _ hnone => ?_
      match ending with
      | .ok () => exact .inl ⟨rfl, hnone⟩
      | .error error => exact .inl ⟨⟨rfl, rfl⟩, hnone⟩
  | cons event rest ih =>
      have hevent : CalmTriple store pre (Telegram.streamEvent context event)
          (fun result _ => Handles ending event rest result)
          fun error _ => Raises ending (event :: rest) error := streamEvent_calm event rest
      refine hevent.bind fun result => ?_
      cases result with
      | some terminal => exact calm_pure (some terminal) fun _ h => h
      | none =>
          refine calm_intro fun locals moves hsame hnone => ?_
          have hrest := @ih (fun _ => True) locals moves (.inl ⟨trivial, hnone⟩)
          refine wp_mono monotone_record hrest fun outcome locals moves h => ?_
          have hkept : telegramStatus ending (event :: rest) = telegramStatus ending rest := hsame
          match outcome with
          | .ok none => exact h.imp (And.imp_left fun hsays => hkept.trans hsays) id
          | .ok (some terminal) =>
              exact h.imp (And.imp_left fun hsays => hsays.trans (congrArg _ hkept.symm)) id
          | .error error =>
              exact h.imp (And.imp_left fun hraises => ⟨hraises.1, hkept.trans hraises.2⟩) id

theorem streamDropped_calm (hfailed : telegramStatus ending events = .failed) :
    CalmTriple store pre (Telegram.streamDropped context)
      (fun terminal _ => terminal.status = (telegramStatus ending events).1) raises := by
  have hshow (collector : StreamCollector) :
      CalmTriple store pre (Telegram.showDropped context collector) (fun _ => pre) raises :=
    CalmTriple.ite (fun _ => calm_pure () fun _ h => h) fun _ =>
      showStream_calm.bind fun _ => handleDroppedStream_calm
  refine calm_getLocal.bind fun locals => CalmTriple.bind (calm_pre (hshow _) fun _ h => h.2)
    fun _ => calm_pure _ fun _ _ => ?_
  rw [hfailed]
  rfl

theorem streamStale_calm (hfailed : telegramStatus ending events = .failed) :
    CalmTriple store pre (Telegram.streamStale context)
      (fun terminal _ => terminal.status = (telegramStatus ending events).1) raises := by
  have hpersist (collector : StreamCollector) :
      CalmTriple store pre (Telegram.persistStreamed context collector) (fun _ => pre) raises :=
    CalmTriple.ite (fun _ => calm_pure () fun _ h => h) fun _ => persistPartial_calm _
  have hreset : CalmTriple store pre (await (.emitEvent context.turnId context.chatId .threadReset))
      (fun _ => pre) raises := calm_await rfl fun _ => rfl
  refine (interruptBestEffort_calm _ _).bind fun _ => (quarantineThread_calm _).bind fun _ => ?_
  refine calm_getLocal.bind fun locals => CalmTriple.bind (calm_pre (hpersist _) fun _ h => h.2)
    fun _ => hreset.bind fun _ => send_calm.bind fun _ => calm_pure _ fun _ _ => ?_
  rw [hfailed]
  rfl

/-- The turn is over with the outcome, or what the client has raised goes through. -/
theorem streamTurn_calm :
    CalmTriple store pre (Telegram.streamTurn context (clientOf ending events))
      (fun terminal _ => terminal.status = (telegramStatus ending events).1)
      fun error _ => Raises ending events error := by
  refine (calm_attempt (streamEvents_calm events)).bind fun outcome => ?_
  match outcome with
  | .ok (some terminal) => exact calm_pure terminal fun _ h => h
  | .ok none => exact calm_assume (fun _ h => h) streamDropped_calm
  | .error (.codexTurnTerminal status raw) => exact fun locals moves h => h
  | .error (.fault fault) =>
      cases fault with
      | staleTurnStream text =>
          have hfailed (h : Raises ending events (.fault (.staleTurnStream text))) :
              telegramStatus ending events = .failed := by
            rw [h.2, h.1]
            rfl
          exact calm_assume (fun _ h => h) fun h => streamStale_calm (hfailed h)
      | cancelled | redisError | timeout | rpcError | staleSidecarTurn | queueError | other =>
          exact fun locals moves h => h

/-! ### Telegram: the turn -/

/-- The handler knows the outcome. -/
def Decided (status : TerminalStatus) (locals : Telegram.TurnLocals) : Prop :=
  locals.terminal = some status.1

theorem withOutcome_calm :
    CalmTriple store pre (Telegram.withOutcome context (clientOf ending events) .acquired)
      (fun _ => Decided (telegramStatus ending events))
      fun error _ => Raises ending events error := by
  have hopen : CalmTriple store pre (await (.external .openCodex) : Telegram.TelegramCode Unit)
      (fun _ => pre) fun error _ => Raises ending events error := calm_await rfl fun _ => rfl
  have hstream : CalmTriple store pre
      (Async.tryFinally (Telegram.streamTurn context (clientOf ending events))
        (await (.external .closeCodex)))
      (fun terminal _ => terminal.status = (telegramStatus ending events).1)
      fun error _ => Raises ending events error :=
    streamTurn_calm.tryFinally (fun _ => calm_await rfl fun _ => rfl) fun _ =>
      calm_await rfl fun _ => rfl
  exact hopen.bind fun _ => hstream.bind fun terminal =>
    calm_modifyLocal _ fun _ h => congrArg some h

/-- How a client ends that nobody cancels: a status that it raises is a terminal one. -/
def Natural : Except Exn Unit → Prop
  | .error (.fault .cancelled) => False
  | .error (.codexTurnTerminal status _) => status.isTerminal = true
  | _ => True

theorem terminal?_getD {status : TurnStatus} (hterminal : status.isTerminal = true) :
    (status.terminal?.getD .failed).1 = status := by
  simp [TurnStatus.terminal?, hterminal]

theorem fail_calm (hfailed : telegramStatus ending events = .failed) (errorCode detail : String) :
    CalmTriple store pre (Telegram.fail errorCode detail)
      (fun _ => Decided (telegramStatus ending events)) raises := by
  rw [hfailed]
  exact calm_modifyLocal _ fun _ _ => rfl

theorem autoResetThread_calm :
    CalmTriple store pre (Telegram.autoResetThread context) (fun _ => pre) raises :=
  (calm_await rfl fun _ => rfl).bind fun _ => (quarantineThread_calm _).bind fun _ =>
    calm_await rfl fun _ => rfl

theorem turnFailed_calm (hnatural : Natural ending) (error : Exn) :
    CalmTriple store (fun _ => Raises ending events error) (Telegram.turnFailed context error)
      (fun _ => Decided (telegramStatus ending events)) fun _ _ => False := by
  refine calm_assume (fun _ h => h) fun hraises => ?_
  obtain ⟨rfl, hstatus⟩ := hraises
  match error with
  | .codexTurnTerminal status raw =>
      refine calm_modifyLocal _ fun locals _ => ?_
      have hsame : (telegramStatus (.error (.codexTurnTerminal status raw)) events).1 = status := by
        rw [hstatus]
        exact terminal?_getD hnatural
      exact congrArg some hsame.symm
  | .fault fault =>
      cases fault with
      | cancelled => exact hnatural.elim
      | timeout text =>
          exact (fail_calm hstatus _ _).bind fun _ => emitFailure_calm.bind fun _ =>
            autoResetThread_calm.bind fun _ => send_calm
      | redisError | staleTurnStream | rpcError | staleSidecarTurn | queueError | other =>
          exact (fail_calm hstatus _ _).bind fun _ => send_calm.bind fun _ => emitFailure_calm

theorem turnFinally_settles {status : TerminalStatus} {locals : Telegram.TurnLocals}
    (h : Unsettled store (Decided status) locals moves) :
    Async.wp recorder record (Telegram.turnFinally context)
      (fun _ _ => Settled store status) locals moves := by
  rcases h with ⟨hdecided, hnone⟩ | hfailed
  · have hterminal : status.1.terminal? = some status := by
      simp [TurnStatus.terminal?, status.2]
    unfold Telegram.turnFinally
    rw [wp_bind, wp_getLocal, either_ok, hdecided]
    simp only [hterminal]
    rw [wp_bind]
    refine (wp_await _).mpr ⟨trivial, fun won => .inl ?_, fun fault => .inr (failed_append rfl)⟩
    change finals (moves ++ _) = [status]
    rw [finals_append, hnone]
    rfl
  · exact wp_mono monotone_record (failed_stays _ hfailed) fun _ _ _ h => .inr h

/-- **A turn on Telegram.** Unless something fails on our side it asks for the outcome that the
events and the ending of its client amount to. -/
theorem runLocked_finals {last : Except Exn Unit × Telegram.TurnLocals} (hnatural : Natural ending)
    (hrun : Runs (Telegram.runLocked context (clientOf ending events) {}) moves last)
    (hcalm : moves.all (calm store) = true) : finals moves = [telegramStatus ending events] := by
  have hlocked : CalmTriple store (fun _ => True)
      (Async.tryCatch (Locks.holdTurnLocks context.chatId context.turnId
        (Telegram.withOutcome context (clientOf ending events))) (Telegram.turnFailed context))
      (fun _ => Decided (telegramStatus ending events)) fun _ _ => False :=
    (holdTurnLocks_calm _ _ withOutcome_calm).tryCatch fun error => turnFailed_calm hnatural error
  have hspec : Async.wp recorder record (Telegram.runLocked context (clientOf ending events))
      (fun _ _ => Settled store (telegramStatus ending events)) {} [] := by
    unfold Telegram.runLocked
    rw [wp_tryFinally]
    refine hlocked.call monotone_record (.inl ⟨trivial, rfl⟩) (fun _ locals moves h => ?_)
      fun _ locals moves h => ?_
    · exact wp_mono monotone_record (turnFinally_settles h) fun outcome _ _ h => by
        cases outcome <;> exact h
    · have hfailed : Failed store moves := h.resolve_left fun h => h.1
      exact wp_mono monotone_record (failed_stays _ hfailed) fun outcome _ _ h => by
        cases outcome <;> exact .inr h
  rcases hrun.promised hspec with hsettled | hfailed
  · exact hsettled
  · exact absurd hfailed (by simp [Failed, hcalm])

end

end CodexServer.Outcome
