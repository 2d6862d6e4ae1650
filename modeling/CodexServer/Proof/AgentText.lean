import CodexServer.Proof.CodexTurn

/-!
# The text of a turn

The agent's messages reach a turn twice: as deltas, and whole when the item is completed. What the
turn streams is compared with the messages themselves, item by item.
-/

namespace CodexServer.CodexTurn

/-! ### One message -/

theorem agentMessageToToken_of_suffix {text accumulated : String}
    (h : text = "" ∨ text.toList <:+ accumulated.toList) :
    agentMessageToToken text accumulated = none := by
  simp only [agentMessageToToken, List.isSuffixOf_iff_suffix, h, if_true]

theorem agentMessageToToken_cases (text accumulated : String) :
    agentMessageToToken text accumulated = none ∨
      ∃ delta, agentMessageToToken text accumulated = some (.token delta) := by
  unfold agentMessageToToken
  split
  · exact .inl rfl
  · split
    · exact .inr ⟨_, rfl⟩
    · exact .inl rfl

/-- A message of the agent: what its deltas made up before it was completed, and its whole text. -/
structure AgentMessage where
  streamed : String
  text : String
deriving DecidableEq

namespace AgentMessage

/-- The text of the turn after a message, when it was `base` before. -/
def emit (base : String) (message : AgentMessage) : String :=
  match agentMessageToToken message.text (base ++ message.streamed) with
  | some (.token delta) => base ++ message.streamed ++ delta
  | _ => base ++ message.streamed

/-- The deltas are the beginning of the text. -/
def Begins (message : AgentMessage) : Prop := message.streamed.toList <+: message.text.toList

instance (message : AgentMessage) : Decidable message.Begins := inferInstanceAs (Decidable (_ <+: _))

variable {message : AgentMessage} {base : String}

theorem Begins.length_lt (h : message.Begins) (hmore : message.streamed ≠ message.text) :
    message.streamed.length < message.text.length := by
  rw [← String.length_toList, ← String.length_toList]
  refine lt_of_le_of_ne (List.IsPrefix.length_le h) fun hlength => hmore ?_
  exact String.toList_inj.mp (List.IsPrefix.eq_of_length h hlength)

/-- A completed message adds nothing, or what makes it the whole text of the turn. -/
theorem emit_cases (base : String) (message : AgentMessage) :
    message.emit base = base ++ message.streamed ∨ message.emit base = message.text := by
  unfold emit agentMessageToToken
  by_cases hsuffix : message.text = "" ∨
      message.text.toList.isSuffixOf (base ++ message.streamed).toList = true
  · simp only [hsuffix, if_true]
    exact .inl trivial
  · cases hbegins : (base ++ message.streamed).toList.isPrefixOf message.text.toList with
    | false =>
        simp only [hsuffix, Bool.false_eq_true, if_false]
        exact .inl trivial
    | true =>
        simp only [hsuffix, if_true, if_false]
        obtain ⟨rest, hrest⟩ := List.isPrefixOf_iff_prefix.mp hbegins
        refine .inr (String.toList_inj.mp ?_)
        rw [String.toList_append, String.toList_ofList, ← hrest, List.drop_left]

/-- A message streamed whole, or before which there is no text, adds itself. -/
theorem emit_eq (h : message.Begins) (hgood : message.streamed = message.text ∨ base = "") :
    message.emit base = base ++ message.text := by
  by_cases hwhole : message.streamed = message.text
  · have hsuffix : message.text.toList <:+ (base ++ message.text).toList := by
      rw [String.toList_append]
      exact List.suffix_append ..
    simp only [emit, hwhole, agentMessageToToken_of_suffix (.inr hsuffix)]
  · have hbase : base = "" := hgood.resolve_left hwhole
    have hlt := h.length_lt hwhole
    subst hbase
    simp only [emit, String.empty_append]
    have htext : message.text ≠ "" := by
      intro hempty
      simp [hempty] at hlt
    have hsuffix : ¬message.text.toList <:+ message.streamed.toList := by
      intro hsuffix
      have hle := hsuffix.length_le
      rw [String.length_toList, String.length_toList] at hle
      omega
    have hbegins : message.streamed.toList.isPrefixOf message.text.toList = true :=
      List.isPrefixOf_iff_prefix.mpr h
    simp only [agentMessageToToken, List.isSuffixOf_iff_suffix, htext, hsuffix, hbegins, or_self,
      if_false, if_true]
    obtain ⟨rest, hrest⟩ := h
    refine String.toList_inj.mp ?_
    rw [String.toList_append, String.toList_ofList, ← hrest, List.drop_left]

/-- Any other message leaves the text too short. -/
theorem emit_lt (h : message.Begins) (hbad : ¬(message.streamed = message.text ∨ base = "")) :
    (message.emit base).length < base.length + message.text.length := by
  obtain ⟨hmore, hbase⟩ := not_or.mp hbad
  have hlt := h.length_lt hmore
  have hpositive : 0 < base.length := by
    rw [Nat.pos_iff_ne_zero, Ne, String.length_eq_zero_iff]
    exact hbase
  rcases emit_cases base message with hemit | hemit
  · rw [hemit, String.length_append]
    omega
  · rw [hemit]
    omega

theorem emit_length_le (h : message.Begins) :
    (message.emit base).length ≤ base.length + message.text.length := by
  by_cases hgood : message.streamed = message.text ∨ base = ""
  · rw [emit_eq h hgood, String.length_append]
  · exact (emit_lt h hgood).le

end AgentMessage

/-! ### The messages of a turn -/

/-- The text of a turn after its messages. -/
def emitAll (base : String) (messages : List AgentMessage) : String :=
  messages.foldl (fun text message => message.emit text) base

/-- The messages themselves, one after the other. -/
def texts (messages : List AgentMessage) : String := String.join (messages.map AgentMessage.text)

/-- Each message has been streamed whole, or there is no text before it. -/
def Reconciled (base : String) : List AgentMessage → Prop
  | [] => True
  | message :: rest =>
      (message.streamed = message.text ∨ base = "") ∧ Reconciled (base ++ message.text) rest

instance Reconciled.decidable (base : String) :
    (messages : List AgentMessage) → Decidable (Reconciled base messages)
  | [] => isTrue trivial
  | message :: rest =>
      have := Reconciled.decidable (base ++ message.text) rest
      inferInstanceAs (Decidable (_ ∧ _))

theorem texts_cons (message : AgentMessage) (rest : List AgentMessage) :
    texts (message :: rest) = message.text ++ texts rest := by
  simp [texts, String.join_cons]

theorem emitAll_length_le {messages : List AgentMessage}
    (h : ∀ message ∈ messages, message.Begins) (base : String) :
    (emitAll base messages).length ≤ base.length + (texts messages).length := by
  induction messages generalizing base with
  | nil => simp [emitAll]
  | cons message rest ih =>
      have hhead : (message.emit base).length ≤ base.length + message.text.length :=
        AgentMessage.emit_length_le (h message List.mem_cons_self)
      have htail := ih (fun later hmem => h later (List.mem_cons_of_mem _ hmem)) (message.emit base)
      rw [texts_cons, String.length_append]
      simp only [emitAll, List.foldl_cons] at htail ⊢
      omega

/-- **Reconciliation.** The text of the turn is the messages just when each has been streamed whole or
comes first: what one message falls short of no later one makes up for. -/
theorem emitAll_eq_iff {messages : List AgentMessage}
    (h : ∀ message ∈ messages, message.Begins) (base : String) :
    emitAll base messages = base ++ texts messages ↔ Reconciled base messages := by
  induction messages generalizing base with
  | nil => simp [emitAll, texts, Reconciled]
  | cons message rest ih =>
      have hbegins := h message List.mem_cons_self
      have hrest : ∀ later ∈ rest, later.Begins := fun later hmem => h later (List.mem_cons_of_mem _ hmem)
      by_cases hgood : message.streamed = message.text ∨ base = ""
      · have hhead := AgentMessage.emit_eq hbegins hgood
        have htail := ih hrest (base ++ message.text)
        simp only [emitAll, List.foldl_cons, hhead, texts_cons, Reconciled, hgood, true_and] at htail ⊢
        rw [← htail, String.append_assoc]
      · refine iff_of_false (fun hsame => ?_) fun hreconciled => hgood hreconciled.1
        have hshort := AgentMessage.emit_lt hbegins hgood
        have hle := emitAll_length_le hrest (message.emit base)
        have hlength := congrArg String.length hsame
        rw [texts_cons, String.length_append, String.length_append] at hlength
        simp only [emitAll, List.foldl_cons] at hle hlength
        omega

/-! ### The notes of a turn -/

inductive NoteKind
  | delta (text : String)
  | message (text : String)
  | other
deriving DecidableEq

/-- A delta of the agent's message, or the message when it is completed. -/
def noteKind (note : Notification) : NoteKind :=
  if note.method = CodexNotif.agentMsgDelta then
    ((note.params.lookup "delta").bind Json.string?).elim .other .delta
  else if note.method = CodexNotif.itemCompleted then
    match (note.params.lookup "item").bind Json.object? with
    | none => .other
    | some item =>
        if (item.lookup "type").bind Json.string? = some CodexItem.agentMessage then
          ((item.lookup "text").bind Json.string?).elim .other .message
        else .other
  else .other

theorem string?_eq_some {value : Option Json} {text : String} (h : value.bind Json.string? = some text) :
    value = some (.string text) := by
  obtain ⟨json, rfl, hjson⟩ := Option.bind_eq_some_iff.mp h
  cases json <;> simp_all [Json.string?]

theorem object?_eq_some {value : Option Json} {fields : List (String × Json)}
    (h : value.bind Json.object? = some fields) : value = some (.object fields) := by
  obtain ⟨json, rfl, hjson⟩ := Option.bind_eq_some_iff.mp h
  cases json <;> simp_all [Json.object?]

theorem elim_eq {kind : String → NoteKind} {value : Option String} {target : NoteKind}
    (htarget : target ≠ .other) (h : value.elim .other kind = target) :
    ∃ text, value = some text ∧ kind text = target := by
  cases value with
  | none => exact absurd h.symm htarget
  | some text => exact ⟨text, rfl, h⟩

theorem noteKind_delta {note : Notification} {text : String} (h : noteKind note = .delta text) :
    note.method = CodexNotif.agentMsgDelta ∧ note.params.lookup "delta" = some (.string text) := by
  unfold noteKind at h
  split at h
  · rename_i hmethod
    obtain ⟨found, hfound, hkind⟩ := elim_eq (by simp) h
    cases hkind
    exact ⟨hmethod, string?_eq_some hfound⟩
  · split at h
    · split at h
      · cases h
      · split at h
        · obtain ⟨found, -, hkind⟩ := elim_eq (by simp) h
          cases hkind
        · cases h
    · cases h

theorem noteKind_message {note : Notification} {text : String} (h : noteKind note = .message text) :
    note.method = CodexNotif.itemCompleted ∧ ∃ item, note.params.lookup "item" = some (.object item) ∧
      item.lookup "type" = some (.string CodexItem.agentMessage) ∧
      item.lookup "text" = some (.string text) := by
  unfold noteKind at h
  split at h
  · obtain ⟨found, -, hkind⟩ := elim_eq (by simp) h
    cases hkind
  · split at h
    · rename_i hmethod
      split at h
      · cases h
      · rename_i item hitem
        split at h
        · rename_i htype
          obtain ⟨found, hfound, hkind⟩ := elim_eq (by simp) h
          cases hkind
          exact ⟨hmethod, item, object?_eq_some hitem, string?_eq_some htype, string?_eq_some hfound⟩
        · cases h
    · cases h

/-- The messages among the notes, when `streamed` was streamed of the first one before, and what is
streamed of a message that is not completed. -/
def messagesOf (streamed : String) : List Notification → List AgentMessage × String
  | [] => ([], streamed)
  | note :: rest =>
      match noteKind note with
      | .delta text => messagesOf (streamed ++ text) rest
      | .message text => (⟨streamed, text⟩ :: (messagesOf "" rest).1, (messagesOf "" rest).2)
      | .other => messagesOf streamed rest

section

variable (python : Python) {note : Notification}

/-- The note is about no text: it becomes nothing or an event of a tool. -/
def isAside (note : Notification) : Bool :=
  match translateNotification python note "" with
  | .ok none | .ok (some (.toolCall _)) | .ok (some (.toolResult ..)) => true
  | _ => false

theorem translate_delta {text : String} (h : noteKind note = .delta text) (accumulated : String) :
    translateNotification python note accumulated =
      .ok (if text = "" then none else some (.token text)) := by
  obtain ⟨hmethod, hdelta⟩ := noteKind_delta h
  unfold translateNotification
  simp only [hmethod]
  rw [if_neg (by decide), if_pos trivial]
  by_cases hempty : text = "" <;>
    simp [Json.index, hdelta, bind, Except.bind, Json.truthy, hempty, pure, Except.pure, Json.asString]

theorem translate_completed (hmethod : note.method = CodexNotif.itemCompleted)
    (accumulated : String) :
    translateNotification python note accumulated =
      ((Json.object note.params).index "item").bind
        fun item => onItemCompleted python item accumulated := by
  unfold translateNotification
  simp only [hmethod]
  rw [if_neg (by decide), if_neg (by decide), if_neg (by decide), if_pos trivial]
  rfl

theorem translate_message {text : String} (h : noteKind note = .message text)
    (accumulated : String) :
    translateNotification python note accumulated = .ok (agentMessageToToken text accumulated) := by
  obtain ⟨hmethod, item, hitem, htype, htext⟩ := noteKind_message h
  rw [translate_completed python hmethod]
  simp [onItemCompleted, Json.index, hitem, htype, htext, Except.bind, bind, pure, Except.pure,
    Json.asString]

/-- Of the completed items only the agent's message depends on the text. -/
theorem onItemCompleted_aside {item : Json}
    (hitem : ∀ fields, item = .object fields →
      fields.lookup "type" = some (.string CodexItem.agentMessage) →
      ∀ text, fields.lookup "text" ≠ some (.string text)) (accumulated : String) :
    onItemCompleted python item accumulated = onItemCompleted python item "" := by
  unfold onItemCompleted
  cases item with
  | object fields =>
      cases htype : fields.lookup "type" with
      | none => simp [Json.index, htype, bind, Except.bind]
      | some itemType =>
          cases itemType with
          | string name =>
              simp only [Json.index, htype, Option.elim_some, bind, Except.bind]
              split
              · rename_i hmessage
                have hnone := hitem fields rfl (hmessage ▸ htype)
                cases htext : fields.lookup "text" with
                | none => simp
                | some value =>
                    cases value <;> simp [Json.asString]
                    rename_i text
                    exact absurd htext (hnone text)
              · rfl
          | _ => simp [Json.index, htype, bind, Except.bind]
  | _ => simp [Json.index, bind, Except.bind]

theorem translate_end (hmethod : note.method = CodexNotif.turnCompleted) (accumulated : String) :
    translateNotification python note accumulated =
      (onTurnCompleted note.params accumulated).map some := by
  unfold translateNotification
  simp only [hmethod]
  rw [if_neg (by decide), if_neg (by decide), if_neg (by decide), if_neg (by decide),
    if_pos trivial]
  rfl

/-- What an aside becomes does not depend on the text. -/
theorem translate_aside (hkind : noteKind note = .other) (haside : isAside python note = true)
    (accumulated : String) :
    translateNotification python note accumulated = translateNotification python note "" := by
  by_cases hcompleted : note.method = CodexNotif.itemCompleted
  · rw [translate_completed python hcompleted, translate_completed python hcompleted]
    simp only [Json.index]
    cases hitem : note.params.lookup "item" with
    | none => rfl
    | some item =>
        refine onItemCompleted_aside python (fun fields hfields htype text htext => ?_) accumulated
        have hnot : ¬CodexNotif.itemCompleted = CodexNotif.agentMsgDelta := by decide
        simp [noteKind, hcompleted, hnot, hitem, hfields, Json.object?, htype, htext, Json.string?]
          at hkind
  · by_cases hend : note.method = CodexNotif.turnCompleted
    · exfalso
      simp only [isAside, translate_end python hend] at haside
      cases hevent : onTurnCompleted note.params "" with
      | error error => simp [hevent, Except.map] at haside
      | ok event =>
          rcases onTurnCompleted_cases hevent with ⟨text, rfl⟩ | ⟨code, detail, rfl⟩ <;>
            simp [hevent, Except.map] at haside
    · unfold translateNotification
      simp only [hcompleted, hend, if_false]

/-- The end of a turn that neither failed nor says what its text is. -/
def endsPlainly (params : List (String × Json)) : Bool :=
  (params.lookup "finalText").isNone &&
    match (params.lookup "turn").getD (.object []) with
    | .object turn => !(turn.lookup "error").any Json.truthy &&
        (turn.lookup "status").bind Json.string? ≠ some "failed"
    | _ => false

theorem onTurnCompleted_plain {params : List (String × Json)} (h : endsPlainly params = true)
    (accumulated : String) : onTurnCompleted params accumulated = .ok (.done accumulated) := by
  simp only [endsPlainly, Bool.and_eq_true, Option.isNone_iff_eq_none] at h
  obtain ⟨hfinal, hturn⟩ := h
  unfold onTurnCompleted
  cases hfields : (params.lookup "turn").getD (.object []) with
  | object turn =>
      simp only [hfields, Bool.and_eq_true, Bool.not_eq_true', decide_eq_true_eq] at hturn
      have herror : (turn.lookup "error").filter Json.truthy = none := by
        cases hvalue : turn.lookup "error" with
        | none => rfl
        | some value => simpa [Option.filter, hvalue] using hturn.1
      simp [Json.get, bind, Except.bind, herror, hturn.2, hfinal, pure, Except.pure]
  | _ => simp [hfields] at hturn

/-! ### What the turn streams -/

/-- The deltas that the turn yields, one after the other. -/
def tokenText (events : List CodexEvent) : String :=
  String.join (events.filterMap fun
    | .token delta => some delta
    | _ => none)

theorem tokenText_append (events later : List CodexEvent) :
    tokenText (events ++ later) = tokenText events ++ tokenText later := by
  simp [tokenText, String.join_append]

theorem absorb_tokenText {sofar : List CodexEvent × String} (h : tokenText sofar.1 = sofar.2)
    (note : Notification) :
    tokenText (absorb python sofar note).1 = (absorb python sofar note).2 := by
  unfold absorb
  cases translateNotification python note sofar.2 with
  | error error => exact h
  | ok event =>
      cases event with
      | none => exact h
      | some event =>
          cases event with
          | token delta =>
              have hone : tokenText [.token delta] = delta := by simp [tokenText]
              rw [tokenText_append, h, hone]
          | _ =>
              rw [tokenText_append, h]
              exact String.append_empty

/-- The text that is kept for the translator is what has been streamed. -/
theorem transcript_tokenText (notes : List Notification) :
    tokenText (transcript python notes).1 = (transcript python notes).2 := by
  induction notes using List.reverseRecOn with
  | nil => rfl
  | append_singleton notes note ih =>
      rw [transcript_append]
      exact absorb_tokenText python ih note

theorem absorb_delta {text : String} (h : noteKind note = .delta text)
    (sofar : List CodexEvent × String) : (absorb python sofar note).2 = sofar.2 ++ text := by
  unfold absorb
  rw [translate_delta python h]
  by_cases hempty : text = "" <;> simp [hempty]

theorem absorb_message {text streamed base : String} (h : noteKind note = .message text)
    {sofar : List CodexEvent × String} (hsofar : sofar.2 = base ++ streamed) :
    (absorb python sofar note).2 = AgentMessage.emit base ⟨streamed, text⟩ := by
  unfold absorb AgentMessage.emit
  rw [translate_message python h, hsofar]
  rcases agentMessageToToken_cases text (base ++ streamed) with hnone | ⟨delta, htoken⟩
  · simp only [hnone, hsofar]
  · simp only [htoken]

theorem absorb_aside (hkind : noteKind note = .other) (haside : isAside python note = true)
    (sofar : List CodexEvent × String) : (absorb python sofar note).2 = sofar.2 := by
  have htranslate := translate_aside python hkind haside sofar.2
  unfold isAside at haside
  unfold absorb
  rw [htranslate]
  split at haside <;> simp_all

/-- The end of a turn leaves its text alone. -/
theorem absorb_end (hmethod : note.method = CodexNotif.turnCompleted)
    (sofar : List CodexEvent × String) :
    (absorb python sofar note).2 = sofar.2 ∧
      (endsPlainly note.params = true →
        (absorb python sofar note).1 = sofar.1 ++ [.done sofar.2]) := by
  unfold absorb
  rw [translate_end python hmethod]
  refine ⟨?_, fun hplain => ?_⟩
  · cases hevent : onTurnCompleted note.params sofar.2 with
    | error error => rfl
    | ok event =>
        rcases onTurnCompleted_cases hevent with ⟨text, rfl⟩ | ⟨code, detail, rfl⟩ <;> rfl
  · rw [onTurnCompleted_plain hplain]
    rfl

/-- **The text of a run of notes.** -/
theorem foldl_absorb_text {notes : List Notification}
    (hasides : ∀ note ∈ notes, noteKind note = .other → isAside python note = true)
    {sofar : List CodexEvent × String} {base streamed : String}
    (hsofar : sofar.2 = base ++ streamed) :
    (notes.foldl (absorb python) sofar).2 =
      emitAll base (messagesOf streamed notes).1 ++ (messagesOf streamed notes).2 := by
  induction notes generalizing sofar base streamed with
  | nil => exact hsofar
  | cons note rest ih =>
      have hrest : ∀ later ∈ rest, noteKind later = .other → isAside python later = true :=
        fun later hmem => hasides later (List.mem_cons_of_mem _ hmem)
      rw [List.foldl_cons]
      unfold messagesOf
      cases hkind : noteKind note with
      | delta text =>
          refine ih hrest ?_
          rw [absorb_delta python hkind, hsofar, String.append_assoc]
      | message text =>
          refine @ih hrest _ (AgentMessage.emit base ⟨streamed, text⟩) _ ?_
          rw [absorb_message python hkind hsofar, String.append_empty]
      | other =>
          refine ih hrest ?_
          rw [absorb_aside python hkind (hasides note List.mem_cons_self hkind), hsofar]

end

section

open Transition

variable {options : Options} {session : Session} {queue : List (Option Notification)}
  {turnStartedAt now : ℚ} {Allowed : Session → Action → Prop}

/-- **The text of a turn.** The deltas that a turn yields, and the final text of an end that brings
none of its own, are the agent's messages just when each has been streamed whole before it was
completed, or there is no text before it. -/
theorem agent_text
    (hreach : Reach (step options) Allowed (.start options queue turnStartedAt now) session)
    {notes : List Notification} {last : Notification} (hyielded : session.yielded = notes ++ [last])
    (hlast : last.method = CodexNotif.turnCompleted)
    (hasides : ∀ note ∈ notes, noteKind note = .other → isAside options.python note = true)
    (hclosed : (messagesOf "" notes).2 = "")
    (hbegins : ∀ message ∈ (messagesOf "" notes).1, message.Begins) :
    (tokenText session.events = texts (messagesOf "" notes).1 ∧
      (endsPlainly last.params = true →
        session.events.getLast? = some (.done (texts (messagesOf "" notes).1)))) ↔
    Reconciled "" (messagesOf "" notes).1 := by
  have hkept := kept_of_reach (Session.start_kept queue turnStartedAt now) hreach
  have htranslated : (session.events, session.accumulated) =
      absorb options.python (transcript options.python notes) last := by
    rw [← transcript_append, ← hyielded]
    exact hkept.translated
  have hevents : session.events =
      (absorb options.python (transcript options.python notes) last).1 :=
    congrArg Prod.fst htranslated
  have htext : (transcript options.python notes).2 = emitAll "" (messagesOf "" notes).1 := by
    have hfold := @foldl_absorb_text options.python _ hasides ([], "") "" "" rfl
    rw [hclosed, String.append_empty] at hfold
    exact hfold
  have hend := absorb_end options.python hlast (transcript options.python notes)
  have htokens : tokenText session.events = emitAll "" (messagesOf "" notes).1 := by
    have hstreamed := transcript_tokenText options.python notes
    calc
      tokenText session.events
        = (absorb options.python (transcript options.python notes) last).2 := by
          rw [hevents]
          exact absorb_tokenText options.python hstreamed last
      _ = emitAll "" (messagesOf "" notes).1 := hend.1.trans htext
  have hiff := emitAll_eq_iff hbegins ""
  rw [String.empty_append] at hiff
  rw [← hiff, htokens]
  refine and_iff_left_of_imp fun hsame hplain => ?_
  have hlastEvent := hevents.trans (hend.2 hplain)
  rw [hlastEvent, htext, hsame, List.getLast?_append_of_ne_nil _ (List.cons_ne_nil _ _)]
  rfl

/-- A turn that waits as long as it takes. -/
def untimed : Options := { threeMinutes with idleS := none }

/-- The agent's message, completed. -/
def aMessage (text : String) : Notification :=
  ⟨CodexNotif.itemCompleted, [("turnId", .string "turn-1"),
    ("item", .object [("type", .string CodexItem.agentMessage), ("text", .string text)])]⟩

/-- A message of which a part has been streamed. -/
theorem agent_text_part :
    ∃ session, run (step untimed) (.start untimed
        [some aDelta, some (aMessage "Hi there"), some (anEnd "turn-1")] 0 0)
        [.resume, .resume, .resume, .resume, .resume, .resume] = some session ∧
      tokenText session.events = "Hi there" := by
  have hyielded : (run (step untimed) (.start untimed
        [some aDelta, some (aMessage "Hi there"), some (anEnd "turn-1")] 0 0)
      [.resume, .resume, .resume, .resume, .resume, .resume]).map Session.yielded =
        some ([aDelta, aMessage "Hi there"] ++ [anEnd "turn-1"]) := rfl
  obtain ⟨session, hrun, hsession⟩ := Option.map_eq_some_iff.mp hyielded
  have htext := (agent_text (reach_of_run_all hrun) hsession rfl (by decide) rfl (by decide)).mpr
    (by decide)
  exact ⟨session, hrun, htext.1⟩

/-- Of two messages the second has not been streamed, and it is neither streamed when it is completed
nor part of the final text. -/
theorem agent_text_fails :
    (run (step threeMinutes) (.start threeMinutes
        [some (aMessage "One."), some (aMessage "Two."), some (anEnd "turn-1")] 0 0)
        [.resume, .resume, .resume, .resume, .resume, .resume]).any (fun session =>
      tokenText session.events = "One." &&
        session.events.getLast? = some (.done "One.")) = true := by
  decide +kernel

end

end CodexServer.CodexTurn
