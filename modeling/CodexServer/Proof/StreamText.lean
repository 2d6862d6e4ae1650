import CodexServer.Proof.Awaits

/-!
# What an aborted turn leaves behind

The partial rows of a run hold what was streamed up to the last cut, and the ways out of
`stream_turn` that persist add the rest. Whether all of it is saved depends on the way out.
-/

open Async
open Program (Move Runs recorder record monotone_record)

namespace CodexServer.StreamText

/-! ### What a run has saved -/

/-- The partial rows, in the order of their ids. -/
def partialDrafts (moves : List StreamMove) : List MessageDraft :=
  moves.filterMap fun
    | .did (.persistPartial _ draft _) (.ok _) => some draft
    | _ => none

def savedText (moves : List StreamMove) : List Char :=
  (partialDrafts moves).flatMap fun draft => draft.text.toList

def savedCalls (moves : List StreamMove) : List ToolCallRecord :=
  (partialDrafts moves).flatMap MessageDraft.calls

/-- A row was committed, and its refresh raised. -/
def tears (moves : List StreamMove) : Bool :=
  moves.any fun
    | .did .refresh (.error _) => true
    | _ => false

/-- What keeps a way out from its partial row: a cancellation of the interrupt, an exception of the
quarantine, a partial row that is not written. -/
def hinders : StreamMove → Bool
  | .did (.external .interrupt) (.error .cancelled) => true
  | .did (.external .quarantine) (.error (.redisError _)) => false
  | .did (.external .quarantine) (.error _) => true
  | .did (.persistPartial ..) (.error _) => true
  | _ => false

section

variable {moves : List StreamMove} {move : StreamMove} {state : StreamState}

theorem partialDrafts_append (moves later : List StreamMove) :
    partialDrafts (moves ++ later) = partialDrafts moves ++ partialDrafts later :=
  List.filterMap_append

theorem savedText_append (moves later : List StreamMove) :
    savedText (moves ++ later) = savedText moves ++ savedText later := by
  simp [savedText, partialDrafts_append]

theorem savedCalls_append (moves later : List StreamMove) :
    savedCalls (moves ++ later) = savedCalls moves ++ savedCalls later := by
  simp [savedCalls, partialDrafts_append]

theorem tears_append (moves later : List StreamMove) :
    tears (moves ++ later) = (tears moves || tears later) := List.any_append

/-- A move that neither commits a partial row nor is a refresh that raises. -/
def isPlain : StreamMove → Bool
  | .did (.persistPartial ..) (.ok _) | .did .refresh (.error _) => false
  | _ => true

/-! ### The loop -/

/-- What is saved is what came before the last cut. -/
structure Saved (state : StreamState) (moves : List StreamMove) : Prop where
  whole : tears moves = false
  text : savedText moves = state.collector.buffer.toList.take state.segmentBufferOffset
  within : state.segmentBufferOffset ≤ state.collector.buffer.toList.length
  calls : savedCalls moves = state.collector.toolCalls.take state.segmentToolCount
  counted : state.segmentToolCount ≤ state.collector.toolCalls.length

/-- Everything is saved, and the state does not know of the last row. -/
structure Torn (state : StreamState) (moves : List StreamMove) : Prop where
  torn : tears moves = true
  text : savedText moves = state.collector.buffer.toList
  calls : savedCalls moves = state.collector.toolCalls
  more : state.segmentDelta ≠ ("", [])

/-- Where the loop raises. -/
def SavedOrTorn (_ : Exn) (state : StreamState) (moves : List StreamMove) : Prop :=
  Saved state moves ∨ Torn state moves

theorem Saved.all (h : Saved state moves) :
    savedText moves ++ state.segmentDelta.1.toList = state.collector.buffer.toList ∧
      savedCalls moves ++ state.segmentDelta.2 = state.collector.toolCalls := by
  simp [StreamState.segmentDelta, h.text, h.calls]

/-- A plain move says nothing about partial rows. -/
theorem plain_single (hplain : isPlain move = true) :
    partialDrafts [move] = [] ∧ tears [move] = false := by
  match move with
  | .yielded _ => exact ⟨rfl, rfl⟩
  | .did op answer =>
      cases op with
      | persistPartial | refresh => cases answer <;> first | exact ⟨rfl, rfl⟩ | cases hplain
      | _ => exact ⟨rfl, rfl⟩

theorem plain_append (hplain : isPlain move = true) (moves : List StreamMove) :
    tears (moves ++ [move]) = tears moves ∧ savedText (moves ++ [move]) = savedText moves ∧
      savedCalls (moves ++ [move]) = savedCalls moves := by
  obtain ⟨hdrafts, htears⟩ := plain_single hplain
  rw [tears_append, savedText_append, savedCalls_append]
  simp [htears, savedText, savedCalls, hdrafts]

theorem Saved.plain (h : Saved state moves) (hplain : isPlain move = true) :
    Saved state (moves ++ [move]) := by
  obtain ⟨htears, htext, hcalls⟩ := plain_append hplain moves
  exact ⟨htears.trans h.whole, htext.trans h.text, h.within, hcalls.trans h.calls, h.counted⟩

variable {turnId : Nat} {draft : MessageDraft} {emitJournal : Bool} {id : Nat}

/-- The rows after one more. -/
theorem saved_persisted (answer : Except Fault Unit) :
    let later := moves ++ [.did (.persistPartial turnId draft emitJournal) (.ok id)] ++
      [.did .refresh answer]
    savedText later = savedText moves ++ draft.text.toList ∧
      savedCalls later = savedCalls moves ++ draft.calls := by
  simp only [savedText_append, savedCalls_append]
  simp [savedText, savedCalls, partialDrafts]

theorem Saved.cut (h : Saved state moves) (htext : draft.text = state.segmentDelta.1)
    (hcalls : draft.calls = state.segmentDelta.2) {ids : List Nat} :
    Saved { state with partialMsgIds := ids }.cutSegment
      (moves ++ [.did (.persistPartial turnId draft emitJournal) (.ok id)] ++
        [.did .refresh (.ok ())]) := by
  obtain ⟨hsavedText, hsavedCalls⟩ :=
    @saved_persisted moves turnId draft emitJournal id (.ok ())
  obtain ⟨hallText, hallCalls⟩ := h.all
  refine ⟨?_, ?_, le_rfl, ?_, le_rfl⟩
  · rw [tears_append, tears_append, h.whole]
    rfl
  · rw [hsavedText, htext, hallText]
    exact List.take_length.symm
  · rw [hsavedCalls, hcalls, hallCalls]
    exact List.take_length.symm

theorem Saved.tear (h : Saved state moves) (htext : draft.text = state.segmentDelta.1)
    (hcalls : draft.calls = state.segmentDelta.2) (hmore : state.segmentDelta ≠ ("", []))
    (failure : Fault) :
    Torn state (moves ++ [.did (.persistPartial turnId draft emitJournal) (.ok id)] ++
      [.did .refresh (.error failure)]) := by
  obtain ⟨hsavedText, hsavedCalls⟩ :=
    @saved_persisted moves turnId draft emitJournal id (.error failure)
  obtain ⟨hallText, hallCalls⟩ := h.all
  refine ⟨?_, ?_, ?_, hmore⟩
  · rw [tears_append]
    exact Bool.or_true _
  · rw [hsavedText, htext, hallText]
  · rw [hsavedCalls, hcalls, hallCalls]

/-- Text and calls come after what is saved already. -/
theorem Saved.absorb (h : Saved state moves) (event : CodexEvent) :
    Saved { state with collector := state.collector.absorb event } moves := by
  cases event with
  | token delta =>
      refine ⟨h.whole, ?_, ?_, h.calls, h.counted⟩
      · simp only [StreamCollector.absorb, String.toList_append]
        rw [List.take_append_of_le_length h.within]
        exact h.text
      · have hwithin := h.within
        simp only [StreamCollector.absorb, String.toList_append, List.length_append]
        omega
  | toolCall record =>
      refine ⟨h.whole, h.text, h.within, ?_, ?_⟩
      · simp only [StreamCollector.absorb]
        rw [List.take_append_of_le_length h.counted]
        exact h.calls
      · have hcounted := h.counted
        simp only [StreamCollector.absorb, List.length_append]
        omega
  | toolResult | done | error => exact ⟨h.whole, h.text, h.within, h.calls, h.counted⟩

end

section

variable {cfg : ExecConfig} {turn : TurnRow} {moves : List StreamMove} {state : StreamState}

/-- The code of `stream_turn`, with a record of what it does. -/
abbrev RecordedTriple {α : Type} (pre : StreamState → List StreamMove → Prop) (code : StreamCode α)
    (post : α → StreamState → List StreamMove → Prop)
    (raises : Exn → StreamState → List StreamMove → Prop) : Prop :=
  Triple recorder record pre code post raises

abbrev recordedWp {α : Type} (code : StreamCode α)
    (post : Except Exn α → StreamState → List StreamMove → Prop) (state : StreamState)
    (moves : List StreamMove) : Prop :=
  Async.wp recorder record code post state moves

/-- The draft of a segment. -/
def segmentDraft (turn : TurnRow) (state : StreamState) : MessageDraft :=
  ⟨turn.chatId, state.segmentDelta.1, true, state.segmentDelta.2, [], none⟩

theorem persistPartialSegment_recorded {emitJournal : Bool}
    {post : Except Exn Unit → StreamState → List StreamMove → Prop}
    (hvalue : ∀ id, post (.ok ())
      { state with partialMsgIds := state.partialMsgIds ++ [id] }.cutSegment
      (moves ++ [.did (.persistPartial cfg.turnId (segmentDraft turn state) emitJournal) (.ok id)] ++
        [.did .refresh (.ok ())]))
    (hpersist : ∀ failure, post (.error (.fault failure)) state
      (moves ++ [.did (.persistPartial cfg.turnId (segmentDraft turn state) emitJournal)
        (.error failure)]))
    (hrefresh : ∀ id failure, post (.error (.fault failure)) state
      (moves ++ [.did (.persistPartial cfg.turnId (segmentDraft turn state) emitJournal) (.ok id)] ++
        [.did .refresh (.error failure)])) :
    recordedWp (persistPartialSegment cfg turn emitJournal) post state moves := by
  unfold recordedWp persistPartialSegment persistAssistantTurn
  rw [wp_bind, wp_getLocal, either_ok, wp_bind]
  refine (wp_await_bind _ _).mpr ⟨trivial, fun id => ?_, hpersist⟩
  exact (wp_await_bind _ _).mpr ⟨trivial, fun _ => hvalue id, hrefresh id⟩

theorem persistSegment_saved :
    RecordedTriple Saved (persistSegment cfg turn) (fun _ => Saved) SavedOrTorn := by
  intro state moves h
  unfold persistSegment
  rw [wp_bind, wp_getLocal, either_ok, wp_ite]
  split
  · exact h
  · rename_i htext
    have hmore : state.segmentDelta ≠ ("", []) := fun hnone => htext (congrArg Prod.fst hnone)
    exact persistPartialSegment_recorded (fun _ => h.cut rfl rfl) (fun _ => .inl (h.plain rfl))
      fun _ failure => .inr (h.tear rfl rfl hmore failure)

variable (cfg turn) in
theorem noteSteerCount_saved (count : Nat) :
    RecordedTriple Saved (noteSteerCount cfg turn count) (fun _ => Saved) SavedOrTorn := by
  intro state moves h
  unfold noteSteerCount
  rw [wp_bind, wp_getLocal, either_ok, wp_ite]
  split
  · exact h
  · rw [wp_bind, wp_modifyLocal, either_ok]
    exact persistSegment_saved _ _ { h with }

/-- An await about no row, after which a `RedisError` is swallowed. -/
theorem orOnRedisError_saved {op : Op} {default : op.Val}
    (hplain : ∀ answer, isPlain (.did op answer) = true) :
    RecordedTriple Saved (orOnRedisError (await op) default) (fun _ => Saved) SavedOrTorn := by
  intro state moves h
  rw [wp_orOnRedisError]
  refine (wp_await _).mpr ⟨trivial, fun value => h.plain (hplain (.ok value)), fun failure => ?_⟩
  cases failure with
  | redisError text => exact h.plain (hplain _)
  | cancelled | timeout | rpcError | staleTurnStream | staleSidecarTurn | queueError | other =>
      exact .inl (h.plain (hplain _))

theorem checkSteerBoundary_saved :
    RecordedTriple Saved (checkSteerBoundary cfg turn) (fun _ => Saved) SavedOrTorn :=
  (orOnRedisError_saved fun _ => rfl).bind monotone_record fun count =>
    noteSteerCount_saved cfg turn count

theorem flushTokenBuffer_saved :
    RecordedTriple Saved flushTokenBuffer (fun _ => Saved) SavedOrTorn := by
  intro state moves h
  unfold flushTokenBuffer
  rw [wp_bind, wp_getLocal, either_ok, wp_ite]
  split
  · exact h
  · rw [wp_bind, wp_modifyLocal, either_ok, wp_emit]
    have hcleared : Saved { state with pendingText := [], pendingSize := 0 } moves := { h with }
    exact hcleared.plain rfl

/-! ### The body of the loop -/

theorem emitFrame_saved (event : ChatEvent) :
    RecordedTriple Saved (Async.emit event) (fun _ => Saved) SavedOrTorn :=
  fun _ _ h => h.plain rfl

theorem emitEvent_saved (kind : EventKind) :
    RecordedTriple Saved (emitEvent cfg turn kind) (fun _ => Saved) SavedOrTorn :=
  fun _ _ h => (wp_await _).mpr ⟨trivial, fun _ => h.plain rfl, fun _ => .inl (h.plain rfl)⟩

theorem pure_saved {α : Type} (value : α) :
    RecordedTriple Saved (pure value) (fun _ => Saved) SavedOrTorn :=
  fun _ _ h => h

theorem flushAndCheck_saved (exit : Option LoopExit) :
    RecordedTriple Saved
      (do
        flushTokenBuffer
        checkSteerBoundary cfg turn
        pure exit)
      (fun _ => Saved) SavedOrTorn :=
  flushTokenBuffer_saved.bind monotone_record fun _ =>
    checkSteerBoundary_saved.bind monotone_record fun _ => pure_saved exit

theorem forwardEvent_saved (event : CodexEvent) :
    RecordedTriple Saved (forwardEvent cfg turn event) (fun _ => Saved) SavedOrTorn :=
  flushTokenBuffer_saved.bind monotone_record fun _ =>
    (emitFrame_saved _).bind monotone_record fun _ =>
      checkSteerBoundary_saved.bind monotone_record fun _ => pure_saved none

theorem coalesceToken_saved (delta : String) :
    RecordedTriple Saved (coalesceToken cfg turn delta) (fun _ => Saved) SavedOrTorn := by
  intro state moves h
  unfold coalesceToken
  rw [wp_bind, wp_modifyLocal, either_ok, wp_bind, wp_getLocal, either_ok, wp_ite]
  have hbuffered : Saved { state with
      pendingText := state.pendingText ++ [delta]
      pendingSize := state.pendingSize + delta.utf8ByteSize } moves := { h with }
  split
  · exact flushAndCheck_saved none _ _ hbuffered
  · exact hbuffered

theorem handleEvent_saved (event : CodexEvent) :
    RecordedTriple Saved (handleEvent cfg turn event) (fun _ => Saved) SavedOrTorn := by
  cases event with
  | error code detail =>
      exact flushTokenBuffer_saved.bind monotone_record fun _ =>
        (emitFrame_saved _).bind monotone_record fun _ =>
          (emitEvent_saved .turnFailed).bind monotone_record fun _ => pure_saved _
  | done finalText => exact flushAndCheck_saved _
  | token delta =>
      intro state moves h
      unfold handleEvent
      simp only [wp_ite]
      split
      · exact coalesceToken_saved delta _ _ h
      · exact forwardEvent_saved _ _ _ h
  | toolCall record => exact forwardEvent_saved _
  | toolResult name text attachments error => exact forwardEvent_saved _

theorem streamEvent_saved (event : CodexEvent) :
    RecordedTriple Saved (streamEvent cfg turn event) (fun _ => Saved) SavedOrTorn := by
  refine (orOnRedisError_saved fun _ => rfl).bind monotone_record fun _ state moves h => ?_
  rw [wp_bind, wp_modifyLocal, either_ok]
  exact handleEvent_saved event _ _ (h.absorb event)

/-! ### The loop -/

theorem client_plain {op : Op} (hop : isClientOp op = true) (answer : Except Fault op.Val) :
    isPlain (.did op answer) = true := by
  cases op <;> first | rfl | simp [isClientOp] at hop

/-- **The loop.** However it is left, what is saved is what came before the last cut, unless a
refresh raised. -/
theorem streamLoop_saved {client : Program Op Op.Val Fault CodexEvent (Except Exn Unit)}
    (honly : client.Only (isClientOp · = true)) :
    RecordedTriple Saved (streamLoop cfg turn client) (fun _ => Saved) SavedOrTorn := by
  intro state moves h
  unfold streamLoop
  rw [wp_forEach]
  refine honly.preserves (fun now => Saved now.1 now.2) ?_ ?_ ?_ h
  · exact fun op hop now hnow => ⟨trivial, fun answer => hnow.plain (client_plain hop answer)⟩
  · intro event rest now hrest hnow
    refine (streamEvent_saved event).call monotone_record hnow ?_ fun _ _ _ herror => herror
    intro exit state moves hsaved
    cases exit with
    | none => exact hrest (state, moves) hsaved
    | some exit => exact hsaved
  · intro outcome now hnow
    cases outcome with
    | ok value => exact hnow
    | error error => exact .inl hnow

/-! ### The ways out -/

/-- The ways out that persist what is left. -/
def keeps : Except Exn (Option LoopExit) → Bool
  | .error (.codexTurnTerminal status _) => status ≠ .completed
  | .error (.fault (.staleTurnStream _)) | .error (.fault (.timeout _))
  | .error (.fault .cancelled) => true
  | _ => false

variable {before : StreamState}

/-- Nothing has been persisted on the way out. -/
structure Bare (before state : StreamState) (moves : List StreamMove) : Prop where
  collector : state.collector = before.collector
  none : partialDrafts moves = []

/-- Nothing has been persisted on the way out yet, and nothing is in the way. -/
structure Clear (before state : StreamState) (moves : List StreamMove) : Prop where
  state_eq : state = before
  none : partialDrafts moves = []
  clear : moves.any hinders = false

/-- What was left is persisted. -/
structure Kept (before state : StreamState) (moves : List StreamMove) : Prop where
  collector : state.collector = before.collector
  text : savedText moves = before.segmentDelta.1.toList
  calls : savedCalls moves = before.segmentDelta.2
  clear : moves.any hinders = false

/-- Something came before it could be persisted. -/
structure Hindered (before state : StreamState) (moves : List StreamMove) : Prop
    extends Bare before state moves where
  hindered : moves.any hinders = true

def KeptOrHindered (before state : StreamState) (moves : List StreamMove) : Prop :=
  Kept before state moves ∨ Hindered before state moves

/-- How a way out ends. -/
structure Left (outcome : Except Exn (Option LoopExit)) (before final : StreamState)
    (moves : List StreamMove) : Prop where
  collector : final.collector = before.collector
  saved : if keeps outcome && !moves.any hinders then
      savedText moves = before.segmentDelta.1.toList ∧ savedCalls moves = before.segmentDelta.2
    else savedText moves = [] ∧ savedCalls moves = []

variable {outcome : Except Exn (Option LoopExit)} {move : StreamMove}

theorem saved_of_none (hnone : partialDrafts moves = []) :
    savedText moves = [] ∧ savedCalls moves = [] := by
  simp [savedText, savedCalls, hnone]

theorem Bare.left (h : Bare before state moves) (hkeeps : keeps outcome = false) :
    Left outcome before state moves := by
  refine ⟨h.collector, ?_⟩
  rw [hkeeps, Bool.false_and, if_neg Bool.false_ne_true]
  exact saved_of_none h.none

theorem KeptOrHindered.left (h : KeptOrHindered before state moves) (hkeeps : keeps outcome = true) :
    Left outcome before state moves := by
  rcases h with h | h
  · refine ⟨h.collector, ?_⟩
    rw [hkeeps, h.clear, if_pos (by decide)]
    exact ⟨h.text, h.calls⟩
  · refine ⟨h.collector, ?_⟩
    rw [hkeeps, h.hindered, if_neg (by decide)]
    exact saved_of_none h.none

theorem partialDrafts_plain (hplain : isPlain move = true) (moves : List StreamMove) :
    partialDrafts (moves ++ [move]) = partialDrafts moves := by
  rw [partialDrafts_append, (plain_single hplain).1, List.append_nil]

theorem hinders_append (moves : List StreamMove) (move : StreamMove) :
    (moves ++ [move]).any hinders = (moves.any hinders || hinders move) := by
  simp

theorem Bare.plain (h : Bare before state moves) (hplain : isPlain move = true) :
    Bare before state (moves ++ [move]) :=
  ⟨h.collector, (partialDrafts_plain hplain moves).trans h.none⟩

theorem Clear.plain (h : Clear before state moves) (hplain : isPlain move = true)
    (hclear : hinders move = false) : Clear before state (moves ++ [move]) :=
  ⟨h.state_eq, (partialDrafts_plain hplain moves).trans h.none, by
    rw [hinders_append, h.clear, hclear]
    rfl⟩

theorem Clear.hinder (h : Clear before state moves) (hplain : isPlain move = true)
    (hhinders : hinders move = true) : Hindered before state (moves ++ [move]) :=
  ⟨⟨congrArg _ h.state_eq, (partialDrafts_plain hplain moves).trans h.none⟩, by
    rw [hinders_append, hhinders, Bool.or_true]⟩

theorem KeptOrHindered.plain (h : KeptOrHindered before state moves) (hplain : isPlain move = true)
    (hclear : hinders move = false) : KeptOrHindered before state (moves ++ [move]) := by
  obtain ⟨-, htext, hcalls⟩ := plain_append hplain moves
  rcases h with h | h
  · refine .inl ⟨h.collector, htext.trans h.text, hcalls.trans h.calls, ?_⟩
    rw [hinders_append, h.clear, hclear]
    rfl
  · refine .inr ⟨h.toBare.plain hplain, ?_⟩
    rw [hinders_append, h.hindered]
    rfl

theorem Clear.kept (h : Clear before state moves) {emitJournal : Bool} {id : Nat}
    {final : StreamState} (hfinal : final.collector = state.collector)
    (answer : Except Fault Unit) :
    Kept before final
      (moves ++ [.did (.persistPartial cfg.turnId (segmentDraft turn state) emitJournal) (.ok id)] ++
        [.did .refresh answer]) := by
  obtain ⟨htext, hcalls⟩ :=
    @saved_persisted moves cfg.turnId (segmentDraft turn state) emitJournal id answer
  obtain ⟨hnoText, hnoCalls⟩ := saved_of_none h.none
  obtain rfl := h.state_eq
  refine ⟨hfinal, ?_, ?_, ?_⟩
  · rw [htext, hnoText, List.nil_append]
    rfl
  · rw [hcalls, hnoCalls, List.nil_append]
    rfl
  · rw [hinders_append, hinders_append, h.clear]
    rfl

theorem persistVisiblePartial_left :
    RecordedTriple (Clear before) (persistVisiblePartial cfg turn) (fun _ => KeptOrHindered before)
      fun _ => KeptOrHindered before := by
  intro state moves h
  unfold persistVisiblePartial
  rw [wp_bind, wp_getLocal, either_ok, wp_ite]
  split
  · rename_i hempty
    obtain ⟨hnoText, hnoCalls⟩ := saved_of_none h.none
    obtain rfl := h.state_eq
    exact .inl ⟨rfl, by rw [hnoText, hempty.1]; rfl, by rw [hnoCalls, hempty.2], h.clear⟩
  · exact persistPartialSegment_recorded (fun _ => .inl (h.kept (by rfl) _))
      (fun _ => .inr (h.hinder rfl rfl)) fun _ failure => .inl (h.kept (by rfl) _)

theorem interruptBestEffort_left (threadId codexTurnId : String) :
    RecordedTriple (Clear before) (interruptBestEffort threadId codexTurnId) (fun _ => Clear before)
      fun _ => Hindered before := by
  intro state moves h
  unfold interruptBestEffort
  rw [wp_ite]
  split
  · exact h
  · rw [wp_exceptException]
    refine (wp_await _).mpr ⟨trivial, fun _ => h.plain rfl rfl, fun failure => ?_⟩
    cases failure with
    | cancelled => exact h.hinder rfl rfl
    | redisError | timeout | rpcError | staleTurnStream | staleSidecarTurn | queueError | other =>
        exact h.plain rfl rfl

theorem quarantineThread_left (threadId : String) :
    RecordedTriple (Clear before) (quarantineThread threadId) (fun _ => Clear before)
      fun _ => Hindered before := by
  intro state moves h
  unfold quarantineThread
  rw [wp_ite]
  split
  · exact h
  · rw [wp_orOnRedisError]
    refine (wp_await _).mpr ⟨trivial, fun _ => h.plain rfl rfl, fun failure => ?_⟩
    cases failure with
    | redisError => exact h.plain rfl rfl
    | cancelled | timeout | rpcError | staleTurnStream | staleSidecarTurn | queueError | other =>
        exact h.hinder rfl rfl

/-- Code on the way out that persists no partial row. -/
abbrev BareTriple {α : Type} (before : StreamState) (code : StreamCode α) : Prop :=
  RecordedTriple (Bare before) code (fun _ => Bare before) fun _ => Bare before

theorem emitFrame_bare (event : ChatEvent) : BareTriple before (Async.emit event) :=
  fun _ _ h => h.plain rfl

theorem emitEvent_bare (kind : EventKind) : BareTriple before (emitEvent cfg turn kind) :=
  fun _ _ h => (wp_await _).mpr ⟨trivial, fun _ => h.plain rfl, fun _ => h.plain rfl⟩

theorem Bare.refresh (h : Bare before state moves) (answer : Except Fault Unit) :
    Bare before state (moves ++ [.did .refresh answer]) := by
  refine ⟨h.collector, ?_⟩
  rw [partialDrafts_append, h.none]
  rfl

theorem Bare.forget (h : Bare before state moves) :
    Bare before { state with partialMsgIds := [] } moves := ⟨h.collector, h.none⟩

theorem finalizeTurnPersist_bare : BareTriple before (finalizeTurnPersist cfg turn) := by
  intro state moves h
  unfold finalizeTurnPersist
  rw [wp_bind, wp_getLocal, either_ok, wp_bind]
  refine (wp_await _).mpr ⟨trivial, fun _ => ?_, fun _ => h.plain rfl⟩
  refine (wp_await_bind _ _).mpr ⟨trivial, fun _ => ?_, fun _ => (h.plain rfl).refresh _⟩
  exact ((h.plain rfl).refresh _).forget

theorem streamDone_bare : BareTriple before (streamDone cfg turn) := by
  intro state moves h
  unfold streamDone
  rw [wp_bind, wp_getLocal, either_ok]
  simp only [wp_ite]
  split
  · exact (finalizeTurnPersist_bare.bind monotone_record fun _ => emitFrame_bare _) _ _ h
  · exact ((emitFrame_bare _).bind monotone_record fun _ => emitEvent_bare _) _ _ h

/-- Code on the way out once what was left is persisted, or cannot be. -/
abbrev PartingTriple {α : Type} (before : StreamState) (code : StreamCode α) : Prop :=
  RecordedTriple (KeptOrHindered before) code (fun _ => KeptOrHindered before)
    fun _ => KeptOrHindered before

theorem emitFrame_parting (event : ChatEvent) : PartingTriple before (Async.emit event) :=
  fun _ _ h => h.plain rfl rfl

theorem emitEvent_parting (kind : EventKind) : PartingTriple before (emitEvent cfg turn kind) :=
  fun _ _ h => (wp_await _).mpr ⟨trivial, fun _ => h.plain rfl rfl, fun _ => h.plain rfl rfl⟩

/-- The interrupt, and what comes after it unless it is cancelled. -/
theorem interrupted_left {threadId codexTurnId : String} {code : StreamCode Unit}
    (hcode : RecordedTriple (Clear before) code (fun _ => KeptOrHindered before)
      fun _ => KeptOrHindered before) :
    RecordedTriple (Clear before) (do interruptBestEffort threadId codexTurnId; code)
      (fun _ => KeptOrHindered before) fun _ => KeptOrHindered before := by
  intro state moves h
  rw [wp_bind]
  exact (interruptBestEffort_left threadId codexTurnId).call monotone_record h
    (fun _ state moves h => hcode state moves h) fun _ _ _ herror => .inr herror

theorem quarantined_left {threadId : String} {code : StreamCode Unit}
    (hcode : RecordedTriple (Clear before) code (fun _ => KeptOrHindered before)
      fun _ => KeptOrHindered before) :
    RecordedTriple (Clear before) (do quarantineThread threadId; code)
      (fun _ => KeptOrHindered before) fun _ => KeptOrHindered before := by
  intro state moves h
  rw [wp_bind]
  exact (quarantineThread_left threadId).call monotone_record h
    (fun _ state moves h => hcode state moves h) fun _ _ _ herror => .inr herror

/-- The partial row, and what comes after it. -/
theorem persisted_left {α : Type} {code : StreamCode α} (hcode : PartingTriple before code) :
    RecordedTriple (Clear before) (do persistVisiblePartial cfg turn; code)
      (fun _ => KeptOrHindered before) fun _ => KeptOrHindered before :=
  persistVisiblePartial_left.bind monotone_record fun _ => hcode

theorem eventFromCompleted_bare {raw : String} :
    BareTriple before (eventFromProbeTerminal cfg turn .completed raw) := by
  intro state moves h
  unfold eventFromProbeTerminal
  rw [wp_bind, wp_getLocal, either_ok]
  simp only [if_true, wp_ite]
  split
  · have hpure (event : ChatEvent) : BareTriple before (pure event) := fun _ _ h => h
    exact (finalizeTurnPersist_bare.bind monotone_record fun _ => hpure _) _ _ h
  · exact h

theorem eventFromProbeTerminal_left {status : TurnStatus} {raw : String}
    (hstatus : status ≠ .completed) :
    RecordedTriple (Clear before) (eventFromProbeTerminal cfg turn status raw)
      (fun _ => KeptOrHindered before) fun _ => KeptOrHindered before := by
  intro state moves h
  unfold eventFromProbeTerminal
  rw [wp_bind, wp_getLocal, either_ok]
  simp only [hstatus, if_false]
  have hpure (event : ChatEvent) : PartingTriple before (pure event) := fun _ _ h => h
  exact persisted_left (hpure _) _ _ h

variable (before) in
/-- **The way out.** What was left is persisted just when the way out keeps it and nothing comes in
between. -/
theorem streamExit_left (outcome : Except Exn (Option LoopExit)) :
    recordedWp (streamExit cfg turn outcome) (fun _ => Left outcome before) before [] := by
  have hbare : Bare before before [] := ⟨rfl, rfl⟩
  have hclear : Clear before before [] := ⟨rfl, rfl, rfl⟩
  have hbareExit {code : StreamCode Unit} (hkeeps : keeps outcome = false)
      (hcode : BareTriple before code) :
      recordedWp code (fun _ => Left outcome before) before [] :=
    hcode.call monotone_record hbare (fun _ _ _ h => h.left hkeeps) fun _ _ _ h => h.left hkeeps
  have hkeptExit {code : StreamCode Unit} (hkeeps : keeps outcome = true)
      (hcode : RecordedTriple (Clear before) code (fun _ => KeptOrHindered before)
        fun _ => KeptOrHindered before) :
      recordedWp code (fun _ => Left outcome before) before [] :=
    hcode.call monotone_record hclear (fun _ _ _ h => h.left hkeeps) fun _ _ _ h => h.left hkeeps
  match outcome with
  | .ok (some .failed) => exact hbare.left rfl
  | .ok (some .done) | .ok none => exact hbareExit rfl streamDone_bare
  | .error (.codexTurnTerminal status raw) =>
      by_cases hcompleted : status = .completed
      · subst hcompleted
        exact hbareExit rfl (eventFromCompleted_bare.bind monotone_record fun _ => emitFrame_bare _)
      · have hkeeps : keeps (.error (.codexTurnTerminal status raw)) = true := by
          simp [keeps, hcompleted]
        exact hkeptExit hkeeps ((eventFromProbeTerminal_left hcompleted).bind monotone_record
          fun _ => emitFrame_parting _)
  | .error (.fault fault) =>
      cases fault with
      | cancelled =>
          exact hkeptExit rfl (interrupted_left (persisted_left
            ((emitEvent_parting _).bind monotone_record fun _ _ _ h => h)))
      | staleTurnStream text =>
          exact hkeptExit rfl (interrupted_left (quarantined_left (persisted_left
            ((emitFrame_parting _).bind monotone_record fun _ => emitEvent_parting _))))
      | timeout text =>
          exact hkeptExit rfl (interrupted_left (quarantined_left (persisted_left
            ((emitFrame_parting _).bind monotone_record fun _ => emitEvent_parting _))))
      | redisError | rpcError | staleSidecarTurn | queueError | other =>
          exact hbareExit rfl ((emitFrame_bare _).bind monotone_record fun _ => emitEvent_bare _)

/-! ### Whole runs -/

/-- The partial rows of the run hold all the text and all the calls it has absorbed. -/
def SavesAll (run : StreamRun cfg turn) : Prop :=
  savedText run.moves = run.final.collector.buffer.toList ∧
    savedCalls run.moves = run.final.collector.toolCalls

/-- The loop was left in a way that persists what is left, and nothing came in between. -/
def leavesKept (run : StreamRun cfg turn) : Bool :=
  keeps run.outcome && !run.leaving.any hinders

/-- **Nothing streamed is lost on abort.** The partial rows hold all that was streamed just when the
way out persists what is left or nothing is left; and, when the refresh of a committed row raised,
just when the way out does not persist that row again. -/
theorem nothing_lost_on_abort (run : StreamRun cfg turn) :
    SavesAll run ↔
      if tears run.streamed then leavesKept run = false
      else leavesKept run = true ∨ run.state.segmentDelta = ("", []) := by
  have hloop : either (fun _ => Saved) SavedOrTorn run.outcome run.state run.streamed :=
    run.loop.promised (streamLoop_saved (runTurn_only turn.chatId) {} [] ⟨rfl, rfl, le_rfl, rfl, le_rfl⟩)
  have hexit : Left run.outcome run.state run.final run.leaving :=
    run.exit.promised (streamExit_left run.state run.outcome)
  have hsaved : (tears run.streamed = false ∧
        savedText run.streamed ++ run.state.segmentDelta.1.toList =
          run.state.collector.buffer.toList ∧
        savedCalls run.streamed ++ run.state.segmentDelta.2 = run.state.collector.toolCalls) ∨
      Torn run.state run.streamed := by
    have hopen (h : Saved run.state run.streamed) := And.intro h.whole h.all
    cases houtcome : run.outcome with
    | ok value =>
        rw [houtcome] at hloop
        exact .inl (hopen hloop)
    | error error =>
        rw [houtcome] at hloop
        exact hloop.imp hopen id
  have hdelta : run.state.segmentDelta = ("", []) ↔
      run.state.segmentDelta.1.toList = [] ∧ run.state.segmentDelta.2 = [] := by
    rw [Prod.ext_iff, String.toList_eq_nil_iff]
  have hleft := hexit.saved
  unfold SavesAll StreamRun.moves
  rw [savedText_append, savedCalls_append, hexit.collector]
  change (if leavesKept run = true then _ else _) at hleft
  rcases hsaved with ⟨hwhole, htext, hcalls⟩ | htorn
  · rw [hwhole, if_neg Bool.false_ne_true, ← htext, ← hcalls]
    cases hkept : leavesKept run with
    | true =>
        rw [hkept, if_pos rfl] at hleft
        simp [hleft]
    | false =>
        rw [hkept, if_neg Bool.false_ne_true] at hleft
        simp only [hleft.1, hleft.2, List.append_cancel_left_eq, hdelta, Bool.false_eq_true, false_or]
        exact and_congr ⟨Eq.symm, Eq.symm⟩ ⟨Eq.symm, Eq.symm⟩
  · rw [htorn.torn, if_pos rfl, htorn.text, htorn.calls]
    have hmore := htorn.more
    cases hkept : leavesKept run with
    | true =>
        rw [hkept, if_pos rfl] at hleft
        rw [Ne, hdelta] at hmore
        simpa [hleft] using hmore
    | false =>
        rw [hkept, if_neg Bool.false_ne_true] at hleft
        simp [hleft]

instance (run : StreamRun cfg turn) : Decidable (SavesAll run) := inferInstanceAs (Decidable (_ ∧ _))

/-- A turn that Codex ends with an error after a token. -/
def erringTurn : ExecConfig where
  turnId := 1
  holder := 1
  clientId := none
  coalesceBytes := 0
  idleTimeout := 180
  activeLeft := 1
  script := ⟨.ok ("thread", "codex-1"), [.event (.token "Hi"), .event (.error "codex_error" none)]⟩

/-- Its token is in no row. -/
theorem token_lost_on_error :
    let run : StreamRun erringTurn (.starting 1 ⟨1, 1, 1, .admin⟩ 0) :=
      .ofAnswers _ _ wellAnswered
    run.outcome = .ok (some .failed) ∧ run.final.collector.buffer = "Hi" ∧ ¬SavesAll run := by
  decide

end
end CodexServer.StreamText
