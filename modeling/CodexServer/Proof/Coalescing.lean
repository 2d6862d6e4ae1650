import Mathlib
import CodexServer.StreamRun

/-!
# Coalesced tokens

`stream_turn` may hold tokens back and yield several as one. Up to the merging of neighbouring
tokens this changes what is yielded only when tokens are still held back at the end.
-/

open Async
open Program (Move Runs recorder record monotone_record)

namespace CodexServer.Coalescing

/-! ### Merging -/

/-- Each maximal run of tokens as one token. -/
def mergeTokens : List ChatEvent → List ChatEvent
  | [] => []
  | frame :: rest =>
      match frame.kind, mergeTokens rest with
      | .token first, ⟨.token second, _⟩ :: later => ⟨.token (first ++ second), ""⟩ :: later
      | _, merged => frame :: merged

def tokenFrame (text : String) : ChatEvent := ⟨.token text, ""⟩

def textLength (frame : ChatEvent) : Nat :=
  match frame.kind with
  | .token text => text.length
  | _ => 0

/-- The length of the text of all the tokens. -/
def tokenLength (frames : List ChatEvent) : Nat := (frames.map textLength).sum

theorem mergeTokens_congr {later later' : List ChatEvent}
    (h : mergeTokens later = mergeTokens later') (frames : List ChatEvent) :
    mergeTokens (frames ++ later) = mergeTokens (frames ++ later') := by
  induction frames with
  | nil => exact h
  | cons frame rest ih => simp only [List.cons_append, mergeTokens, ih]

/-- Two tokens are as good as one. -/
theorem mergeTokens_two (first second : String) (later : List ChatEvent) :
    mergeTokens (tokenFrame first :: tokenFrame second :: later) =
      mergeTokens (tokenFrame (first ++ second) :: later) := by
  simp only [mergeTokens, tokenFrame]
  cases hmerged : mergeTokens later with
  | nil => rfl
  | cons frame rest =>
      obtain ⟨kind, eventId⟩ := frame
      cases kind <;> simp [String.append_assoc]

theorem mergeTokens_join (texts : List String) (text : String) (later : List ChatEvent) :
    mergeTokens ((text :: texts).map tokenFrame ++ later) =
      mergeTokens (tokenFrame (String.join (text :: texts)) :: later) := by
  induction texts generalizing text with
  | nil => simp
  | cons next rest ih =>
      have hjoined := ih (text ++ next)
      simp only [List.map_cons, List.cons_append] at hjoined ⊢
      rw [mergeTokens_two, hjoined]
      simp [String.join_cons, String.append_assoc]

theorem tokenLength_append (frames later : List ChatEvent) :
    tokenLength (frames ++ later) = tokenLength frames + tokenLength later := by
  simp [tokenLength]

/-- Merging loses no text. -/
theorem tokenLength_mergeTokens (frames : List ChatEvent) :
    tokenLength (mergeTokens frames) = tokenLength frames := by
  induction frames with
  | nil => rfl
  | cons frame rest ih =>
      have hcons (frame : ChatEvent) (rest : List ChatEvent) :
          tokenLength (frame :: rest) = textLength frame + tokenLength rest := by
        simp [tokenLength]
      simp only [mergeTokens]
      split
      · rename_i first second eventId later hkind hmerged
        rw [hmerged, hcons] at ih
        have hframe : textLength frame = first.length := by simp only [textLength, hkind]
        rw [hcons, hcons, ← ih, hframe]
        simp only [textLength, String.length_append]
        omega
      · rw [hcons, hcons, ih]

/-! ### The frames of a sequence of events -/

/-- What is held back, as one token. -/
def flushed (pending : List String) : List ChatEvent :=
  if pending = [] then [] else [tokenFrame (String.join pending)]

def byteSize (pending : List String) : Nat := (pending.map String.utf8ByteSize).sum

/-- What the loop yields for the events, when `pending` is held back. -/
def loopFrames (limit : Nat) : List String → List CodexEvent → List ChatEvent
  | _, [] => []
  | pending, event :: rest =>
      match event with
      | .token delta =>
          if 0 < limit then
            if limit ≤ byteSize (pending ++ [delta]) then
              flushed (pending ++ [delta]) ++ loopFrames limit [] rest
            else loopFrames limit (pending ++ [delta]) rest
          else flushed pending ++ [tokenFrame delta] ++ loopFrames limit [] rest
      | .toolCall _ | .toolResult .. =>
          flushed pending ++ [chatEventToPb event] ++ loopFrames limit [] rest
      | .error _ _ => flushed pending ++ [chatEventToPb event]
      | .done _ => flushed pending

/-- What is held back when the events are over; nothing after a done or an error event. -/
def leftover (limit : Nat) : List String → List CodexEvent → List String
  | pending, [] => pending
  | pending, event :: rest =>
      match event with
      | .token delta =>
          if 0 < limit ∧ byteSize (pending ++ [delta]) < limit then
            leftover limit (pending ++ [delta]) rest
          else leftover limit [] rest
      | .toolCall _ | .toolResult .. => leftover limit [] rest
      | .error _ _ | .done _ => []

theorem mergeTokens_flushed (pending : List String) (later : List ChatEvent) :
    mergeTokens (flushed pending ++ later) = mergeTokens (pending.map tokenFrame ++ later) := by
  cases pending with
  | nil => rfl
  | cons text rest =>
      rw [mergeTokens_join]
      rfl

variable {limit : Nat} {events : List CodexEvent}

/-- **Coalescing.** With what is held back at the end, the coalesced frames are the plain ones. -/
theorem mergeTokens_loopFrames (hlimit : 0 < limit) (pending : List String)
    (events : List CodexEvent) (exit : List ChatEvent) :
    mergeTokens (loopFrames limit pending events ++
        ((leftover limit pending events).map tokenFrame ++ exit)) =
      mergeTokens (pending.map tokenFrame ++ (loopFrames 0 [] events ++ exit)) := by
  induction events generalizing pending with
  | nil => rfl
  | cons event rest ih =>
      cases event with
      | token delta =>
          by_cases hfull : limit ≤ byteSize (pending ++ [delta])
          · have hnot : ¬byteSize (pending ++ [delta]) < limit := not_lt.mpr hfull
            simp only [loopFrames, leftover, hlimit, hfull, hnot, if_true, if_false, and_false,
              lt_irrefl]
            rw [List.append_assoc, mergeTokens_flushed, mergeTokens_congr (ih [])]
            simp [flushed]
          · have hmore : byteSize (pending ++ [delta]) < limit := not_le.mp hfull
            simp only [loopFrames, leftover, hlimit, hfull, hmore, if_true, if_false, and_true,
              lt_irrefl]
            rw [ih]
            simp [flushed]
      | toolCall | toolResult =>
          simp only [loopFrames, leftover]
          rw [List.append_assoc, List.append_assoc, mergeTokens_flushed]
          refine mergeTokens_congr ?_ _
          rw [mergeTokens_congr (ih [])]
          simp [flushed]
      | error code detail =>
          simp only [loopFrames, leftover]
          rw [List.append_assoc, mergeTokens_flushed]
          simp [flushed]
      | done finalText =>
          simp only [loopFrames, leftover]
          rw [mergeTokens_flushed]
          simp [flushed]

/-- What is held back is text that was streamed. -/
theorem leftover_ne (hnonempty : ∀ delta, CodexEvent.token delta ∈ events → delta ≠ "")
    {pending : List String} (hpending : ∀ delta ∈ pending, delta ≠ "") :
    ∀ delta ∈ leftover limit pending events, delta ≠ "" := by
  induction events generalizing pending with
  | nil => exact hpending
  | cons event rest ih =>
      have hrest : ∀ delta, CodexEvent.token delta ∈ rest → delta ≠ "" :=
        fun delta hmem => hnonempty delta (List.mem_cons_of_mem _ hmem)
      cases event with
      | token delta =>
          simp only [leftover]
          split
          · refine ih hrest fun text hmem => ?_
            rcases List.mem_append.mp hmem with hold | hnew
            · exact hpending text hold
            · exact List.mem_singleton.mp hnew ▸ hnonempty delta List.mem_cons_self
          · exact ih hrest nofun
      | toolCall | toolResult => exact ih hrest nofun
      | error | done => exact nofun

theorem tokenLength_pos {texts : List String} (hsome : texts ≠ [])
    (hnonempty : ∀ text ∈ texts, text ≠ "") : 0 < tokenLength (texts.map tokenFrame) := by
  cases texts with
  | nil => exact absurd rfl hsome
  | cons text rest =>
      have htext : text.length ≠ 0 := by
        rw [Ne, String.length_eq_zero_iff]
        exact hnonempty text List.mem_cons_self
      simp only [tokenLength, List.map_cons, List.sum_cons, textLength, tokenFrame]
      omega

/-- The coalesced frames are the plain ones just when nothing is held back at the end. -/
theorem mergeTokens_loopFrames_eq_iff (hlimit : 0 < limit)
    (hnonempty : ∀ delta, CodexEvent.token delta ∈ events → delta ≠ "") (exit : List ChatEvent) :
    mergeTokens (loopFrames limit [] events ++ exit) = mergeTokens (loopFrames 0 [] events ++ exit) ↔
      leftover limit [] events = [] := by
  have hmerged := mergeTokens_loopFrames hlimit [] events exit
  rw [List.map_nil, List.nil_append] at hmerged
  rw [← hmerged]
  constructor
  · intro hsame
    by_contra hsome
    have hkept : ∀ delta ∈ leftover limit [] events, delta ≠ "" := leftover_ne hnonempty nofun
    have hpositive := tokenLength_pos hsome hkept
    have hlength := congrArg tokenLength hsame
    simp only [tokenLength_mergeTokens, tokenLength_append] at hlength
    omega
  · intro hnone
    rw [hnone]
    rfl

/-! ### The loop -/

/-- The events of a client, and how it ends. -/
def clientOf (ending : Except Exn Unit) :
    List CodexEvent → Program Op Op.Val Fault CodexEvent (Except Exn Unit)
  | [] => .ret ending
  | event :: rest => .emit event (clientOf ending rest)

def frames (moves : List StreamMove) : List ChatEvent :=
  moves.filterMap fun
    | .yielded frame => some frame
    | _ => none

/-- An await that does not raise; the final message is answered with what is stored for its draft. -/
def smooth (store : MessageDraft → AssistantMessage) : StreamMove → Bool
  | .did (.persistFinal _ draft _) (.ok message) => message = store draft
  | .did (.external .publishBus) (.error (.redisError _))
  | .did (.peekSteer _) (.error (.redisError _))
  | .did (.external .quarantine) (.error (.redisError _)) => true
  | .did (.external .interrupt) (.error fault) => fault ≠ .cancelled
  | .did _ (.error _) => false
  | _ => true

/-- How the loop is left. -/
def loopOutcome (ending : Except Exn Unit) : List CodexEvent → Except Exn (Option LoopExit)
  | [] => ending.map fun _ => none
  | .error _ _ :: _ => .ok (some .failed)
  | .done _ :: _ => .ok (some .done)
  | _ :: rest => loopOutcome ending rest

/-- What the collector has then. -/
def collected (collector : StreamCollector) : List CodexEvent → StreamCollector
  | [] => collector
  | event :: rest =>
      match event with
      | .error _ _ | .done _ => collector.absorb event
      | _ => collected (collector.absorb event) rest

/-- The loop has yielded `yielded`, holds `pending` back and has collected `collector`. -/
structure Holding (yielded : List ChatEvent) (pending : List String) (collector : StreamCollector)
    (state : StreamState) (moves : List StreamMove) : Prop where
  yielded_eq : frames moves = yielded
  pending_eq : state.pendingText = pending
  size_eq : state.pendingSize = byteSize pending
  collector_eq : state.collector = collector

/-- Some await has raised. -/
def Rough (store : MessageDraft → AssistantMessage) (moves : List StreamMove) : Prop :=
  moves.all (smooth store) = false

section

variable {cfg : ExecConfig} {turn : TurnRow} {store : MessageDraft → AssistantMessage}
  {yielded : List ChatEvent} {pending : List String} {collector : StreamCollector}
  {state : StreamState} {moves : List StreamMove} {move : StreamMove}

abbrev HoldingTriple {α : Type} (store : MessageDraft → AssistantMessage)
    (pre : StreamState → List StreamMove → Prop) (code : StreamCode α)
    (post : α → StreamState → List StreamMove → Prop) : Prop :=
  Triple recorder record pre code post fun _ _ => Rough store

theorem frames_did (op : Op) (answer : Except Fault op.Val) :
    frames (moves ++ [.did op answer]) = frames moves := by
  simp [frames]

theorem frames_yielded (frame : ChatEvent) :
    frames (moves ++ [.yielded frame]) = frames moves ++ [frame] := by
  simp [frames]

theorem Holding.did (h : Holding yielded pending collector state moves) (op : Op)
    (answer : Except Fault op.Val) :
    Holding yielded pending collector state (moves ++ [.did op answer]) :=
  { h with yielded_eq := (frames_did op answer).trans h.yielded_eq }

theorem Holding.emit (h : Holding yielded pending collector state moves) (frame : ChatEvent) :
    Holding (yielded ++ [frame]) pending collector state (moves ++ [.yielded frame]) :=
  { h with yielded_eq := (frames_yielded frame).trans (congrArg (· ++ [frame]) h.yielded_eq) }

theorem rough_append (hrough : smooth store move = false) : Rough store (moves ++ [move]) := by
  simp [Rough, hrough]

theorem await_holding {op : Op} (hraises : ∀ fault, smooth store (.did op (.error fault)) = false) :
    HoldingTriple store (Holding yielded pending collector) (await op)
      fun _ => Holding yielded pending collector :=
  fun _ _ h => (wp_await _).mpr
    ⟨trivial, fun value => h.did op (.ok value), fun fault => rough_append (hraises fault)⟩

theorem orOnRedisError_holding {op : Op} {default : op.Val}
    (hraises : ∀ fault, fault.isRedisError = false → smooth store (.did op (.error fault)) = false) :
    HoldingTriple store (Holding yielded pending collector) (orOnRedisError (await op) default)
      fun _ => Holding yielded pending collector := by
  intro state moves h
  rw [wp_orOnRedisError]
  refine (wp_await _).mpr ⟨trivial, fun value => h.did op (.ok value), fun fault => ?_⟩
  cases fault with
  | redisError text => exact h.did op _
  | cancelled | timeout | rpcError | staleTurnStream | staleSidecarTurn | queueError | other =>
      exact rough_append (hraises _ rfl)

theorem emit_holding (frame : ChatEvent) :
    HoldingTriple store (Holding yielded pending collector) (Async.emit frame)
      fun _ => Holding (yielded ++ [frame]) pending collector :=
  fun _ _ h => h.emit frame

theorem pure_holding {α : Type} (value : α) :
    HoldingTriple store (Holding yielded pending collector) (pure value)
      fun result state moves => result = value ∧ Holding yielded pending collector state moves :=
  fun _ _ h => ⟨rfl, h⟩

theorem persistPartialSegment_holding (emitJournal : Bool) :
    HoldingTriple store (Holding yielded pending collector)
      (persistPartialSegment cfg turn emitJournal) fun _ => Holding yielded pending collector := by
  intro state moves h
  unfold persistPartialSegment persistAssistantTurn
  rw [wp_bind, wp_getLocal, either_ok, wp_bind]
  refine (wp_await_bind _ _).mpr ⟨trivial, fun id => ?_, fun _ => rough_append rfl⟩
  refine (wp_await_bind _ _).mpr ⟨trivial, fun _ => ?_, fun _ => rough_append rfl⟩
  exact { (h.did _ (.ok id)).did .refresh (.ok ()) with }

theorem persistSegment_holding :
    HoldingTriple store (Holding yielded pending collector) (persistSegment cfg turn)
      fun _ => Holding yielded pending collector := by
  intro state moves h
  unfold persistSegment
  rw [wp_bind, wp_getLocal, either_ok, wp_ite]
  split
  · exact h
  · exact persistPartialSegment_holding false _ _ h

theorem checkSteerBoundary_holding :
    HoldingTriple store (Holding yielded pending collector) (checkSteerBoundary cfg turn)
      fun _ => Holding yielded pending collector := by
  refine (orOnRedisError_holding ?_).bind monotone_record fun count state moves h => ?_
  · intro fault hfault
    cases fault <;> first | rfl | cases hfault
  · unfold noteSteerCount
    rw [wp_bind, wp_getLocal, either_ok, wp_ite]
    split
    · exact h
    · rw [wp_bind, wp_modifyLocal, either_ok]
      exact persistSegment_holding _ _ { h with }

theorem flushTokenBuffer_holding :
    HoldingTriple store (Holding yielded pending collector) flushTokenBuffer
      fun _ => Holding (yielded ++ flushed pending) [] collector := by
  intro state moves h
  unfold flushTokenBuffer
  rw [wp_bind, wp_getLocal, either_ok, wp_ite]
  split
  · rename_i hempty
    have hnone : pending = [] := h.pending_eq.symm.trans hempty
    subst hnone
    exact ⟨by rw [h.yielded_eq, flushed, if_pos rfl, List.append_nil], hempty, h.size_eq,
      h.collector_eq⟩
  · rename_i hsome
    rw [h.pending_eq] at hsome
    rw [wp_bind, wp_modifyLocal, either_ok, wp_emit]
    have hflushed : flushed pending = [tokenFrame (String.join pending)] := by
      rw [flushed, if_neg hsome]
    rw [h.pending_eq, hflushed]
    exact ⟨(frames_yielded _).trans (congrArg (· ++ _) h.yielded_eq), rfl, rfl, h.collector_eq⟩

/-- A frame after what is held back, and the boundary check. -/
theorem forwardEvent_holding (event : CodexEvent) :
    HoldingTriple store (Holding yielded pending collector) (forwardEvent cfg turn event)
      fun exit state moves => exit = none ∧
        Holding (yielded ++ flushed pending ++ [chatEventToPb event]) [] collector state moves :=
  flushTokenBuffer_holding.bind monotone_record fun _ =>
    (emit_holding _).bind monotone_record fun _ =>
      checkSteerBoundary_holding.bind monotone_record fun _ => pure_holding none

theorem flushAndCheck_holding (exit : Option LoopExit) :
    HoldingTriple store (Holding yielded pending collector)
      (do
        flushTokenBuffer
        checkSteerBoundary cfg turn
        pure exit)
      fun result state moves => result = exit ∧
        Holding (yielded ++ flushed pending) [] collector state moves :=
  flushTokenBuffer_holding.bind monotone_record fun _ =>
    checkSteerBoundary_holding.bind monotone_record fun _ => pure_holding exit

theorem coalesceToken_holding (delta : String) :
    HoldingTriple store (Holding yielded pending collector) (coalesceToken cfg turn delta)
      fun exit state moves => exit = none ∧
        if cfg.coalesceBytes ≤ byteSize (pending ++ [delta]) then
          Holding (yielded ++ flushed (pending ++ [delta])) [] collector state moves
        else Holding yielded (pending ++ [delta]) collector state moves := by
  intro state moves h
  unfold coalesceToken
  rw [wp_bind, wp_modifyLocal, either_ok, wp_bind, wp_getLocal, either_ok, wp_ite]
  have hsize : state.pendingSize + delta.utf8ByteSize = byteSize (pending ++ [delta]) := by
    rw [h.size_eq]
    simp [byteSize]
  have hbuffered : Holding yielded (pending ++ [delta]) collector { state with
      pendingText := state.pendingText ++ [delta]
      pendingSize := state.pendingSize + delta.utf8ByteSize } moves :=
    ⟨h.yielded_eq, congrArg (· ++ [delta]) h.pending_eq, hsize, h.collector_eq⟩
  simp only [hsize] at hbuffered ⊢
  split
  · exact flushAndCheck_holding none _ _ hbuffered
  · exact ⟨rfl, hbuffered⟩

/-- What the body of the loop does, once the collector has the event. -/
theorem streamEvent_holding {event : CodexEvent}
    {post : Option LoopExit → StreamState → List StreamMove → Prop}
    (hhandle : HoldingTriple store (Holding yielded pending (collector.absorb event))
      (handleEvent cfg turn event) post) :
    HoldingTriple store (Holding yielded pending collector) (streamEvent cfg turn event) post := by
  refine (orOnRedisError_holding ?_).bind monotone_record fun _ state moves h => ?_
  · intro fault hfault
    cases fault <;> first | rfl | cases hfault
  · rw [wp_bind, wp_modifyLocal, either_ok]
    exact hhandle _ _ { h with collector_eq := congrArg (·.absorb event) h.collector_eq }

/-- How the loop over a client ends. -/
def LoopEnd (limit : Nat) (store : MessageDraft → AssistantMessage) (ending : Except Exn Unit)
    (yielded : List ChatEvent) (pending : List String) (collector : StreamCollector)
    (events : List CodexEvent) (outcome : Except Exn (Option LoopExit)) (state : StreamState)
    (moves : List StreamMove) : Prop :=
  (outcome = loopOutcome ending events ∧
    Holding (yielded ++ loopFrames limit pending events) (leftover limit pending events)
      (collected collector events) state moves) ∨ Rough store moves

/-- One event, and the rest of them. -/
theorem loop_step {ending : Except Exn Unit} {event : CodexEvent} {rest : List CodexEvent}
    {post : Option LoopExit → StreamState → List StreamMove → Prop}
    {last : Except Exn (Option LoopExit) → StreamState → List StreamMove → Prop}
    (hhandle : HoldingTriple store (Holding yielded pending (collector.absorb event))
      (handleEvent cfg turn event) post)
    (hnext : ∀ state moves, post none state moves →
      Async.wp recorder record (streamLoop cfg turn (clientOf ending rest)) last state moves)
    (hexit : ∀ exit state moves, post (some exit) state moves → last (.ok (some exit)) state moves)
    (hrough : ∀ outcome state moves, Rough store moves → last outcome state moves)
    (h : Holding yielded pending collector state moves) :
    Async.wp recorder record (streamLoop cfg turn (clientOf ending (event :: rest))) last state
      moves := by
  unfold streamLoop
  rw [wp_forEach]
  refine (streamEvent_holding hhandle).call monotone_record h ?_ fun _ state moves h =>
    hrough _ state moves h
  intro exit state moves hpost
  cases exit with
  | none =>
      have hlater := hnext state moves hpost
      unfold streamLoop at hlater
      rw [wp_forEach] at hlater
      exact hlater
  | some exit => exact hexit exit state moves hpost

/-- What comes after an event that does not end the loop. -/
theorem loopEnd_cons {limit : Nat} {ending : Except Exn Unit} {event : CodexEvent}
    {rest : List CodexEvent} {shown : List ChatEvent} {held : List String}
    (hframes : loopFrames limit pending (event :: rest) = shown ++ loopFrames limit held rest)
    (hleft : leftover limit pending (event :: rest) = leftover limit held rest)
    (houtcome : loopOutcome ending (event :: rest) = loopOutcome ending rest)
    (hcollected : collected collector (event :: rest) = collected (collector.absorb event) rest)
    {code : StreamCode (Option LoopExit)}
    (h : Async.wp recorder record code
      (LoopEnd limit store ending (yielded ++ shown) held (collector.absorb event) rest) state
      moves) :
    Async.wp recorder record code
      (LoopEnd limit store ending yielded pending collector (event :: rest)) state moves := by
  have hsame : LoopEnd limit store ending yielded pending collector (event :: rest) =
      LoopEnd limit store ending (yielded ++ shown) held (collector.absorb event) rest := by
    unfold LoopEnd
    rw [hframes, hleft, houtcome, hcollected, List.append_assoc]
  rw [hsame]
  exact h

theorem coalesceToken_handled (hlimit : 0 < cfg.coalesceBytes) (delta : String) :
    HoldingTriple store (Holding yielded pending collector) (handleEvent cfg turn (.token delta))
      fun exit state moves => exit = none ∧
        if cfg.coalesceBytes ≤ byteSize (pending ++ [delta]) then
          Holding (yielded ++ flushed (pending ++ [delta])) [] collector state moves
        else Holding yielded (pending ++ [delta]) collector state moves := by
  have hcode : handleEvent cfg turn (.token delta) = coalesceToken cfg turn delta := if_pos hlimit
  rw [hcode]
  exact coalesceToken_holding delta

theorem plainToken_handled (hlimit : ¬0 < cfg.coalesceBytes) (delta : String) :
    HoldingTriple store (Holding yielded pending collector) (handleEvent cfg turn (.token delta))
      fun exit state moves => exit = none ∧
        Holding (yielded ++ flushed pending ++ [tokenFrame delta]) [] collector state moves := by
  have hcode : handleEvent cfg turn (.token delta) = forwardEvent cfg turn (.token delta) :=
    if_neg hlimit
  rw [hcode]
  exact forwardEvent_holding (.token delta)

theorem error_handled (code : String) (detail : Option String) :
    HoldingTriple store (Holding yielded pending collector)
      (handleEvent cfg turn (.error code detail)) fun exit state moves => exit = some .failed ∧
        Holding (yielded ++ flushed pending ++ [chatEventToPb (.error code detail)]) [] collector
          state moves :=
  flushTokenBuffer_holding.bind monotone_record fun _ =>
    (emit_holding _).bind monotone_record fun _ =>
      (await_holding fun _ => rfl).bind monotone_record fun _ => pure_holding _

/-- **The loop.** -/
theorem streamLoop_holding (store : MessageDraft → AssistantMessage) {ending : Except Exn Unit}
    (events : List CodexEvent)
    (h : Holding yielded pending collector state moves) :
    Async.wp recorder record (streamLoop cfg turn (clientOf ending events))
      (LoopEnd cfg.coalesceBytes store ending yielded pending collector events) state moves := by
  induction events generalizing yielded pending collector state moves with
  | nil =>
      unfold streamLoop
      rw [wp_forEach]
      have hnone : yielded ++ loopFrames cfg.coalesceBytes pending [] = yielded := List.append_nil _
      exact .inl ⟨rfl, hnone.symm ▸ h⟩
  | cons event rest ih =>
      have hrough (outcome : Except Exn (Option LoopExit)) (state : StreamState)
          (moves : List StreamMove) (hrough : Rough store moves) :
          LoopEnd cfg.coalesceBytes store ending yielded pending collector (event :: rest) outcome
            state moves := .inr hrough
      cases event with
      | token delta =>
          by_cases hlimit : 0 < cfg.coalesceBytes
          · refine loop_step (coalesceToken_handled hlimit delta) ?_
              (fun exit _ _ hpost => nomatch hpost.1) hrough h
            rintro state moves ⟨-, hpost⟩
            by_cases hfull : cfg.coalesceBytes ≤ byteSize (pending ++ [delta])
            · have hnot : ¬byteSize (pending ++ [delta]) < cfg.coalesceBytes := not_lt.mpr hfull
              rw [if_pos hfull] at hpost
              refine loopEnd_cons ?_ ?_ rfl rfl (ih hpost)
              · simp only [loopFrames, hlimit, hfull, if_true]
              · simp only [leftover, hnot, and_false, if_false]
            · have hmore : byteSize (pending ++ [delta]) < cfg.coalesceBytes := not_le.mp hfull
              rw [if_neg hfull, ← List.append_nil yielded] at hpost
              refine loopEnd_cons ?_ ?_ rfl rfl (ih hpost)
              · simp only [loopFrames, hlimit, hfull, if_true, if_false, List.nil_append]
              · simp only [leftover, hlimit, hmore, and_self, if_true]
          · refine loop_step (plainToken_handled hlimit delta) ?_
              (fun exit _ _ hpost => nomatch hpost.1) hrough h
            rintro state moves ⟨-, hpost⟩
            rw [List.append_assoc] at hpost
            refine loopEnd_cons ?_ ?_ rfl rfl (ih hpost)
            · simp only [loopFrames, hlimit, if_false]
            · simp only [leftover, hlimit, false_and, if_false]
      | toolCall | toolResult =>
          refine loop_step (forwardEvent_holding _) ?_ (fun exit _ _ hpost => nomatch hpost.1) hrough h
          rintro state moves ⟨-, hpost⟩
          rw [List.append_assoc] at hpost
          exact loopEnd_cons rfl rfl rfl rfl (ih hpost)
      | error code detail =>
          refine loop_step (error_handled code detail) (fun _ _ hpost => nomatch hpost.1) ?_ hrough h
          rintro exit state moves ⟨hexit, hpost⟩
          rw [List.append_assoc] at hpost
          exact .inl ⟨congrArg Except.ok hexit, hpost⟩
      | done finalText =>
          refine loop_step (flushAndCheck_holding _) (fun _ _ hpost => nomatch hpost.1) ?_ hrough h
          rintro exit state moves ⟨hexit, hpost⟩
          exact .inl ⟨congrArg Except.ok hexit, hpost⟩

/-! ### The ways out -/

/-- The draft of the final message. -/
def finalDraft (cfg : ExecConfig) (turn : TurnRow) (collector : StreamCollector) : MessageDraft :=
  ⟨turn.chatId, collector.fullText, false, collector.toolCalls, collector.attachments, cfg.clientId⟩

/-- What is yielded on the way out. -/
def exitFrames (cfg : ExecConfig) (turn : TurnRow) (store : MessageDraft → AssistantMessage)
    (collector : StreamCollector) : Except Exn (Option LoopExit) → List ChatEvent
  | .ok (some .failed) => []
  | .ok (some .done) | .ok none =>
      if collector.doneSeen then
        [⟨.done turn.chatId (finalTextForDoneFrame collector.finalText collector.buffer)
          (some (store (finalDraft cfg turn collector))) false, ""⟩]
      else [errorEvent CodexErrorCode.streamDropped (some "Codex stream ended without completion")]
  | .error (.codexTurnTerminal status raw) =>
      if status = .completed then
        [⟨.done turn.chatId (finalTextForDoneFrame collector.fullText collector.buffer)
          (if collector.hasContent then some (store (finalDraft cfg turn collector)) else none)
          false, ""⟩]
      else [errorEvent ("codex_reported_" ++ raw) (some raw)]
  | .error (.fault (.staleTurnStream _)) =>
      [errorEvent CodexErrorCode.turnTimeout (some "stale-turn-notifications")]
  | .error (.fault (.timeout _)) =>
      [errorEvent CodexErrorCode.turnTimeout
        (some ("idle>" ++ toString cfg.idleTimeout ++ ".0s"))]
  | .error (.fault .cancelled) => []
  | .error (.fault fault) => [errorEvent CodexErrorCode.codexError (some (Exn.fault fault).text)]

theorem Rough.append (hrough : Rough store moves) (move : StreamMove) :
    Rough store (moves ++ [move]) := by
  unfold Rough at hrough ⊢
  rw [List.all_append, hrough]
  rfl

/-- Once an await has raised, one has. -/
theorem rough_stays {α : Type} (code : StreamCode α) (hrough : Rough store moves) :
    Async.wp recorder record code (fun _ _ => Rough store) state moves := by
  unfold Async.wp
  generalize code state = program
  induction program generalizing moves with
  | ret value => exact hrough
  | call op next ih => exact ⟨trivial, fun answer => ih answer (hrough.append _)⟩
  | emit out rest ih => exact ih (hrough.append _)

/-- What is yielded in the end and how it ends, unless some await has raised. -/
def Shown (store : MessageDraft → AssistantMessage) (shown : List ChatEvent)
    (ended result : Except Exn Unit) (moves : List StreamMove) : Prop :=
  (frames moves = shown ∧ result = ended) ∨ Rough store moves

theorem rough_shown {shown : List ChatEvent} {ended : Except Exn Unit} (code : StreamCode Unit)
    (hrough : Rough store moves) :
    Async.wp recorder record code (fun result _ => Shown store shown ended result) state moves :=
  wp_mono monotone_record (rough_stays code hrough) fun _ _ _ h => .inr h

theorem Triple.shown {code : StreamCode Unit} {pre : StreamState → List StreamMove → Prop}
    {shown : List ChatEvent} {held : List String} {collected : StreamCollector}
    (hcode : HoldingTriple store pre code fun _ => Holding shown held collected)
    (hpre : pre state moves) :
    Async.wp recorder record code (fun result _ => Shown store shown (.ok ()) result) state moves :=
  hcode.call monotone_record hpre (fun _ _ _ h => .inl ⟨h.yielded_eq, rfl⟩) fun _ _ _ h => .inr h

theorem emitEvent_holding (kind : EventKind) :
    HoldingTriple store (Holding yielded pending collector) (emitEvent cfg turn kind)
      fun _ => Holding yielded pending collector :=
  await_holding fun _ => rfl

theorem interruptBestEffort_holding (threadId codexTurnId : String) :
    HoldingTriple store (Holding yielded pending collector)
      (interruptBestEffort threadId codexTurnId) fun _ => Holding yielded pending collector := by
  intro state moves h
  unfold interruptBestEffort
  rw [wp_ite]
  split
  · exact h
  · rw [wp_exceptException]
    refine (wp_await _).mpr ⟨trivial, fun value => h.did _ (.ok value), fun fault => ?_⟩
    cases fault with
    | cancelled => exact rough_append rfl
    | redisError | timeout | rpcError | staleTurnStream | staleSidecarTurn | queueError | other =>
        exact h.did _ (.error _)

theorem quarantineThread_holding (threadId : String) :
    HoldingTriple store (Holding yielded pending collector) (quarantineThread threadId)
      fun _ => Holding yielded pending collector := by
  intro state moves h
  unfold quarantineThread
  rw [wp_ite]
  split
  · exact h
  · refine orOnRedisError_holding ?_ _ _ h
    intro fault hfault
    cases fault <;> first | rfl | cases hfault

theorem persistVisiblePartial_holding :
    HoldingTriple store (Holding yielded pending collector) (persistVisiblePartial cfg turn)
      fun _ => Holding yielded pending collector := by
  intro state moves h
  unfold persistVisiblePartial
  rw [wp_bind, wp_getLocal, either_ok, wp_ite]
  split
  · exact h
  · exact persistPartialSegment_holding true _ _ h

/-- The final message, and what is yielded after it. -/
theorem finalizeTurnPersist_shown {shown : List ChatEvent}
    (code : AssistantMessage → StreamCode Unit)
    (hcode : ∀ state moves, Holding yielded pending collector state moves →
      Async.wp recorder record (code (store (finalDraft cfg turn collector)))
        (fun result _ => Shown store shown (.ok ()) result) state moves)
    (h : Holding yielded pending collector state moves) :
    Async.wp recorder record (finalizeTurnPersist cfg turn)
      (either (fun message => Async.wp recorder record (code message)
          fun result _ => Shown store shown (.ok ()) result)
        fun error _ => Shown store shown (.ok ()) (.error error)) state moves := by
  unfold finalizeTurnPersist
  rw [wp_bind, wp_getLocal, either_ok, wp_bind, h.collector_eq]
  refine (wp_await _).mpr ⟨trivial, fun message => ?_, fun _ => .inr (rough_append rfl)⟩
  rw [either_ok]
  by_cases hstored : message = store (finalDraft cfg turn collector)
  · subst hstored
    refine (wp_await_bind _ _).mpr ⟨trivial, fun _ => ?_, fun _ => .inr (rough_append rfl)⟩
    exact hcode _ _ { (h.did _ (.ok _)).did .refresh (.ok ()) with }
  · have hrough : Rough store (moves ++ [.did (.persistFinal cfg.turnId
        (finalDraft cfg turn collector) state.partialMsgIds) (.ok message)]) :=
      rough_append (by simpa [smooth] using hstored)
    refine (wp_await_bind _ _).mpr ⟨trivial, fun _ => ?_, fun _ => .inr (hrough.append _)⟩
    exact rough_shown (code message) (hrough.append _)

theorem emit_shown (frame : ChatEvent) (h : Holding yielded pending collector state moves) :
    Async.wp recorder record (Async.emit frame : StreamCode Unit)
      (fun result _ => Shown store (yielded ++ [frame]) (.ok ()) result) state moves :=
  Triple.shown (emit_holding frame) h

theorem streamDone_shown (h : Holding yielded pending collector state moves) :
    Async.wp recorder record (streamDone cfg turn)
      (fun result _ => Shown store
        (yielded ++ exitFrames cfg turn store collector (.ok none)) (.ok ()) result) state moves := by
  unfold streamDone
  rw [wp_bind, wp_getLocal, either_ok]
  simp only [wp_ite, h.collector_eq, exitFrames]
  split
  · rw [wp_bind]
    exact finalizeTurnPersist_shown (fun _ => Async.emit _) (fun _ _ h => emit_shown _ h) h
  · exact Triple.shown ((emit_holding _).bind monotone_record fun _ => emitEvent_holding _) h

theorem streamTerminal_shown (status : TurnStatus) (raw : String)
    (h : Holding yielded pending collector state moves) :
    Async.wp recorder record (streamFailed cfg turn (.codexTurnTerminal status raw))
      (fun result _ => Shown store (yielded ++ exitFrames cfg turn store collector
        (.error (.codexTurnTerminal status raw))) (.ok ()) result) state moves := by
  unfold streamFailed
  rw [wp_bind]
  unfold eventFromProbeTerminal
  rw [wp_bind, wp_getLocal, either_ok]
  simp only [h.collector_eq, exitFrames]
  by_cases hcompleted : status = .completed
  · simp only [hcompleted, if_true, wp_ite]
    split
    · rw [wp_bind]
      exact finalizeTurnPersist_shown (fun _ => Async.emit _) (fun _ _ h => emit_shown _ h) h
    · exact emit_shown _ h
  · simp only [hcompleted, if_false]
    rw [wp_bind]
    exact persistVisiblePartial_holding.call monotone_record h (fun _ _ _ h => emit_shown _ h)
      fun _ _ _ h => .inr h

theorem streamCancelled_shown (h : Holding yielded pending collector state moves) :
    Async.wp recorder record (streamFailed cfg turn (.fault .cancelled))
      (fun result _ => Shown store yielded (.error (.fault .cancelled)) result) state moves := by
  unfold streamFailed
  rw [wp_bind]
  refine (interruptBestEffort_holding _ _).call monotone_record h (fun _ state moves h => ?_)
    fun _ _ _ h => .inr h
  rw [either_ok, wp_bind]
  refine persistVisiblePartial_holding.call monotone_record h (fun _ state moves h => ?_)
    fun _ _ _ h => .inr h
  rw [either_ok, wp_bind]
  exact (emitEvent_holding _).call monotone_record h
    (fun _ state moves h => .inl ⟨h.yielded_eq, rfl⟩) fun _ _ _ h => .inr h

/-- How the way out ends. -/
def exitResult : Except Exn (Option LoopExit) → Except Exn Unit
  | .error (.fault .cancelled) => .error (.fault .cancelled)
  | _ => .ok ()

/-- **The way out.** -/
theorem streamExit_shown (outcome : Except Exn (Option LoopExit))
    (h : Holding yielded pending collector state moves) :
    Async.wp recorder record (streamExit cfg turn outcome)
      (fun result _ => Shown store (yielded ++ exitFrames cfg turn store collector outcome)
        (exitResult outcome) result) state moves := by
  have hquiet (frame : ChatEvent) (kind : EventKind) :
      HoldingTriple store (Holding yielded pending collector)
        (do Async.emit frame; emitEvent cfg turn kind)
        fun _ => Holding (yielded ++ [frame]) pending collector :=
    (emit_holding frame).bind monotone_record fun _ => emitEvent_holding kind
  match outcome with
  | .ok (some .failed) => exact .inl ⟨h.yielded_eq.trans (List.append_nil _).symm, rfl⟩
  | .ok (some .done) | .ok none => exact streamDone_shown h
  | .error (.codexTurnTerminal status raw) => exact streamTerminal_shown status raw h
  | .error (.fault fault) =>
      cases fault with
      | cancelled =>
          rw [show exitFrames cfg turn store collector (.error (.fault .cancelled)) = [] from rfl,
            List.append_nil]
          exact streamCancelled_shown h
      | staleTurnStream text =>
          exact Triple.shown ((interruptBestEffort_holding _ _).bind monotone_record fun _ =>
            (quarantineThread_holding _).bind monotone_record fun _ =>
              persistVisiblePartial_holding.bind monotone_record fun _ => hquiet _ _) h
      | timeout text =>
          exact Triple.shown ((interruptBestEffort_holding _ _).bind monotone_record fun _ =>
            (quarantineThread_holding _).bind monotone_record fun _ =>
              persistVisiblePartial_holding.bind monotone_record fun _ => hquiet _ _) h
      | redisError | rpcError | staleSidecarTurn | queueError | other =>
          exact Triple.shown (hquiet _ _) h

/-! ### Whole runs -/

variable {ending : Except Exn Unit} {result result' : Except Exn Unit} {final final' : StreamState}
  {moves' : List StreamMove}

/-- **What a run yields.** -/
theorem streamFrom_frames
    (hrun : Runs (streamFrom cfg turn (clientOf ending events) {}) moves (result, final))
    (hsmooth : moves.all (smooth store) = true) :
    frames moves = loopFrames cfg.coalesceBytes [] events ++
        exitFrames cfg turn store (collected {} events) (loopOutcome ending events) ∧
      result = exitResult (loopOutcome ending events) := by
  unfold streamFrom at hrun
  rw [runs_attempt_bind] at hrun
  obtain ⟨streamed, outcome, state, leaving, hloop, hexit, rfl⟩ := hrun
  have hstart : Holding [] [] {} {} [] := ⟨rfl, rfl, rfl, rfl⟩
  rw [List.all_append, Bool.and_eq_true] at hsmooth
  rcases hloop.promised (streamLoop_holding store events hstart) with
    ⟨rfl, hheld⟩ | hrough
  · rcases hexit.promised (streamExit_shown _ hheld) with hshown | hrough
    · exact hshown
    · unfold Rough at hrough
      rw [List.nil_append, List.all_append, hsmooth.1, hsmooth.2] at hrough
      cases hrough
  · unfold Rough at hrough
    rw [List.nil_append, hsmooth.1] at hrough
    cases hrough

/-- **Token coalescing is transparent.** Up to the merging of neighbouring tokens a turn yields the
same with and without coalescing, just when no token is held back when its events are over. -/
theorem coalescing_transparent (hlimit : 0 < limit)
    (hnonempty : ∀ delta, CodexEvent.token delta ∈ events → delta ≠ "")
    (hrun : Runs (streamFrom { cfg with coalesceBytes := limit } turn (clientOf ending events) {})
      moves (result, final))
    (hplain : Runs (streamFrom { cfg with coalesceBytes := 0 } turn (clientOf ending events) {})
      moves' (result', final'))
    (hsmooth : moves.all (smooth store) = true) (hsmooth' : moves'.all (smooth store) = true) :
    mergeTokens (frames moves) = mergeTokens (frames moves') ↔ leftover limit [] events = [] := by
  rw [(streamFrom_frames hrun hsmooth).1, (streamFrom_frames hplain hsmooth').1]
  exact mergeTokens_loopFrames_eq_iff hlimit hnonempty _

/-- A turn of three tokens, at the end of which Codex says done or the stream drops. -/
def threeTokens (done : Bool) : List CodexEvent :=
  [.token "Hel", .token "lo", .token "!"] ++ if done then [.done "Hello!"] else []

def plainConfig : ExecConfig := ⟨1, 1, none, 0, 180, 1, ⟨.error "", []⟩⟩

def tokensRun (limit : Nat) (done : Bool) : List StreamMove × Except Exn Unit × StreamState :=
  (streamFrom { plainConfig with coalesceBytes := limit } (.starting 1 ⟨1, 1, 1, .admin⟩ 0)
    (clientOf (.ok ()) (threeTokens done)) {}).exec wellAnswered

/-- Done comes while a token is held back. -/
theorem coalescing_transparent_done :
    mergeTokens (frames (tokensRun 4 true).1) = mergeTokens (frames (tokensRun 0 true).1) := by
  have hnonempty : ∀ delta, CodexEvent.token delta ∈ threeTokens true → delta ≠ "" := by
    intro delta hmem
    simp only [threeTokens, if_true, List.mem_append, List.mem_cons, CodexEvent.token.injEq,
      List.not_mem_nil, or_false, reduceCtorEq] at hmem
    rcases hmem with rfl | rfl | rfl <;> decide
  have hsmooth : (tokensRun 4 true).1.all (smooth storedMessage) = true := by decide
  have hsmooth' : (tokensRun 0 true).1.all (smooth storedMessage) = true := by decide
  exact (coalescing_transparent (by decide) hnonempty (Program.runs_exec wellAnswered _)
    (Program.runs_exec wellAnswered _) hsmooth hsmooth').mpr (by decide)

/-- The stream drops, and the token that was held back is lost. -/
theorem coalescing_drops_token :
    (tokensRun 4 false).1.all (smooth storedMessage) = true ∧
    (tokensRun 0 false).1.all (smooth storedMessage) = true ∧
    mergeTokens (frames (tokensRun 4 false).1) ≠ mergeTokens (frames (tokensRun 0 false).1) := by
  decide

/-! ### The client of `stream_turn` -/

/-- The loop over a client is the loop over the events that it has yielded. -/
theorem streamLoop_client {client : Program Op Op.Val Fault CodexEvent (Except Exn Unit)}
    {last : Except Exn (Option LoopExit) × StreamState}
    (hrun : Runs (streamLoop cfg turn client state) moves last) :
    ∃ ending events moves', Runs (streamLoop cfg turn (clientOf ending events) state) moves' last ∧
      frames moves' = frames moves ∧ moves'.Sublist moves := by
  induction client generalizing state moves with
  | ret ending => exact ⟨ending, [], moves, hrun, rfl, .refl _⟩
  | call op next ih =>
      cases hrun with
      | call answer hrest =>
          obtain ⟨ending, events, moves', hevents, hframes, hsublist⟩ := ih answer hrest
          exact ⟨ending, events, moves', hevents, hframes, hsublist.cons _⟩
  | emit event rest ih =>
      change Runs ((streamEvent cfg turn event state).bind (andThen _)) moves last at hrun
      rw [Program.runs_bind] at hrun
      obtain ⟨before, ⟨outcome, middle⟩, after, hbody, hlater, rfl⟩ := hrun
      match outcome with
      | .ok none =>
          obtain ⟨ending, events, moves', hevents, hframes, hsublist⟩ := ih hlater
          refine ⟨ending, event :: events, before ++ moves', hbody.bind hevents, ?_,
            hsublist.append_left before⟩
          unfold frames at hframes ⊢
          rw [List.filterMap_append, List.filterMap_append, hframes]
      | .ok (some exit) => exact ⟨.ok (), [event], _, hbody.bind hlater, rfl, .refl _⟩
      | .error error => exact ⟨.ok (), [event], _, hbody.bind hlater, rfl, .refl _⟩

/-- What a turn yields is what it yields for the events of its client. -/
theorem streamTurn_frames (hrun : Runs (streamTurn cfg turn {}) moves (result, final))
    (hsmooth : moves.all (smooth store) = true) :
    ∃ ending events, frames moves = loopFrames cfg.coalesceBytes [] events ++
      exitFrames cfg turn store (collected {} events) (loopOutcome ending events) := by
  rw [streamTurn_eq] at hrun
  unfold streamFrom at hrun
  rw [runs_attempt_bind] at hrun
  obtain ⟨streamed, outcome, state, leaving, hloop, hexit, rfl⟩ := hrun
  obtain ⟨ending, events, moves', hevents, hframes, hsublist⟩ := streamLoop_client hloop
  have hfrom : Runs (streamFrom cfg turn (clientOf ending events) {}) (moves' ++ leaving)
      (result, final) := by
    unfold streamFrom
    rw [runs_attempt_bind]
    exact ⟨moves', outcome, state, leaving, hevents, hexit, rfl⟩
  have hsmooth' : (moves' ++ leaving).all (smooth store) = true := by
    rw [List.all_append, Bool.and_eq_true] at hsmooth ⊢
    exact ⟨List.all_eq_true.mpr fun move hmem =>
      List.all_eq_true.mp hsmooth.1 move (hsublist.subset hmem), hsmooth.2⟩
  refine ⟨ending, events, ?_⟩
  rw [← (streamFrom_frames hfrom hsmooth').1]
  unfold frames at hframes ⊢
  rw [List.filterMap_append, List.filterMap_append, hframes]

end
end CodexServer.Coalescing
