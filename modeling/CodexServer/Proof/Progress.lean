import CodexServer.Progress
import CodexServer.Proof.ShownChunks

/-!
# A final answer is shown once

The stream message shows the first chunk of a stripped window, and `send_response` sends what comes
after that window if the final text begins with it. So the chat shows the answer once just if the
window is shown whole, at the start of the text, and by this very call, and no message is cut in a
tag or in an entity.
-/

namespace CodexServer.Progress

open Markdown

variable {parse : Text → Forest true .blocks} {text other part between : Text}
  {reporter : Reporter} {answers : Answers} {finalText : Text}

/-! ### What a text says -/

/-- What is rendered of a text, before it is cut. -/
def wholeHtml (parse : Text → Forest true .blocks) (text : Text) : Text :=
  if (strip text).isEmpty then [] else (renderedText (parse text)).getD []

theorem wholeHtml_spec (parse : Text → Forest true .blocks) (text : Text) :
    (∃ shown, Displays (wholeHtml parse text) shown) ∧
      splitChunks (wholeHtml parse text) messageLimit = some (renderHtml parse text) := by
  unfold wholeHtml renderHtml
  split
  · exact ⟨⟨[], [], .nil, rfl⟩, rfl⟩
  · obtain ⟨html, shown, hhtml, -, hshown, -⟩ := renderedText_spec (parse text)
    obtain ⟨chunks, hchunks⟩ := splitChunks_some (show 24 < messageLimit by decide) html
    rw [hhtml, Option.getD_some, Option.bind_some, hchunks, Option.getD_some]
    exact ⟨⟨shown, hshown⟩, rfl⟩

/-- The chunks of a text show all of it just if none is cut in a tag or in an entity. -/
theorem showsAll_renderHtml : ShowsAll (wholeHtml parse text) (renderHtml parse text) ↔
    CutsApart (wholeHtml parse text) := by
  obtain ⟨⟨shown, hshown⟩, hchunks⟩ := wholeHtml_spec parse text
  exact messages_show_all hshown hchunks

/-- The first chunk of a text shows all of it just if nothing is shown after it. -/
theorem showsAll_first {rendered : Text} {more : List Text}
    (h : renderHtml parse text = rendered :: more) :
    ShowsAll (wholeHtml parse text) [rendered] ↔ FirstIsAll (wholeHtml parse text) := by
  obtain ⟨⟨shown, hshown⟩, hchunks⟩ := wholeHtml_spec parse text
  exact first_shows_all hshown (h ▸ hchunks)

theorem wholeHtml_of_nil (h : renderHtml parse text = []) : wholeHtml parse text = [] := by
  have hchunks := (wholeHtml_spec parse text).2
  rw [h] at hchunks
  unfold splitChunks splitFrom at hchunks
  split at hchunks
  · obtain ⟨more, -, hcons⟩ := Option.map_eq_some_iff.mp hchunks
    cases hcons
  · split at hchunks
    · next hempty => exact List.isEmpty_iff.mp hempty
    · cases hchunks

/-- The message shows nothing but space. -/
def Blank (message : Text) : Prop := ∃ shown, Displays message shown ∧ strip shown = []

/-- No message of the stream shows anything. -/
def Quiet (reporter : Reporter) : Prop := ∀ message ∈ reporter.streamMessage, Blank message

theorem showsAll_nil (stream : Option Text) :
    ShowsAll [] stream.toList ↔ ∀ message ∈ stream, Blank message := by
  have hnil : Displays [] [] := ⟨[], .nil, rfl⟩
  cases stream with
  | none => exact iff_of_true ⟨[], [], hnil, .nil, .nil space_nil⟩ nofun
  | some message =>
      constructor
      · rintro ⟨whole, texts, hwhole, htexts, hjoined⟩ _ ⟨⟩
        obtain ⟨shown, rest, hshown, hrest, rfl⟩ := List.forall₂_cons_left_iff.mp htexts
        cases hrest
        rw [hwhole.unique hnil, joined_singleton_iff] at hjoined
        exact ⟨shown, hshown, hjoined.symm⟩
      · intro h
        obtain ⟨shown, hshown, hstrip⟩ := h message rfl
        exact ⟨[], [shown], hnil, .cons hshown .nil, joined_singleton_iff.mpr hstrip.symm⟩

/-! ### The window -/

theorem streamWindow_starts (text : Text) : streamWindow text <+: text := by
  unfold streamWindow
  split
  · exact List.prefix_refl text
  · exact List.take_prefix _ _

/-- A stripped window is at the start of the text just if the text does not begin with a space. -/
theorem strip_window_starts (hne : strip (streamWindow text) ≠ []) :
    strip (streamWindow text) <+: text ↔ Solid text := by
  constructor
  · rintro ⟨more, hmore⟩ c hc
    obtain ⟨d, visible, hvisible⟩ := List.exists_cons_of_ne_nil hne
    have hhead : text.head? = some d := by rw [← hmore, hvisible, List.cons_append, List.head?_cons]
    obtain rfl := Option.some.inj (hhead.symm.trans hc)
    exact solid_strip (streamWindow text) d (by rw [hvisible, List.head?_cons])
  · intro hsolid
    have hwindow : Solid (streamWindow text) := solid_of_isPrefix hsolid (streamWindow_starts text)
    rw [strip, lstrip_of_solid hwindow]
    exact (List.rdropWhile_prefix _ _).trans (streamWindow_starts text)

theorem stripCommittedPrefix_of_isPrefix (h : other <+: text) : ∃ between, Space between ∧
    text = other ++ between ++ stripCommittedPrefix text other := by
  obtain ⟨more, rfl⟩ := h
  unfold stripCommittedPrefix
  by_cases hempty : other.isEmpty = true
  · refine ⟨[], nofun, ?_⟩
    rw [if_pos hempty, List.isEmpty_iff.mp hempty]
    rfl
  · have hstarts : other.isPrefixOf (other ++ more) = true :=
      List.isPrefixOf_iff_prefix.mpr (List.prefix_append _ _)
    obtain ⟨between, hbetween, hsplit⟩ := lstrip_split more
    refine ⟨between, hbetween, ?_⟩
    rw [if_neg hempty, if_neg (by simp [hstarts]), List.drop_left, List.append_assoc, ← hsplit]

theorem stripCommittedPrefix_of_not (h : ¬other <+: text) :
    stripCommittedPrefix text other = text := by
  have hnot : other.isPrefixOf text = false :=
    Bool.eq_false_iff.mpr fun hstarts => h (List.isPrefixOf_iff_prefix.mp hstarts)
  unfold stripCommittedPrefix
  split
  · rfl
  · rw [hnot, Bool.not_false, if_pos rfl]

@[simp] theorem stripCommittedPrefix_nil (text : Text) : stripCommittedPrefix text [] = text := rfl

/-! ### The stream message -/

/-- The first message is taken, and so is an edit if Telegram takes it and it changes something. -/
def Lands (edits : Bool) (reporter : Reporter) (rendered : Text) : Prop :=
  ∀ message ∈ reporter.streamMessage, edits = true ∧ message ≠ rendered

theorem upsert_of_nil {edits : Bool} (h : renderHtml parse text = []) :
    upsertStreamMessage parse edits reporter text = some reporter := by
  unfold upsertStreamMessage
  rw [h]

/-- The upsert of a text that has a chunk. -/
theorem upsert_of_cons (reporter : Reporter) (edits : Bool) {rendered : Text} {more : List Text}
    (h : renderHtml parse text = rendered :: more) :
    (Lands edits reporter rendered ∧ upsertStreamMessage parse edits reporter text =
      some { reporter with streamMessage := some rendered }) ∨
    (¬Lands edits reporter rendered ∧ upsertStreamMessage parse edits reporter text = none) := by
  unfold upsertStreamMessage
  rw [h]
  cases hmessage : reporter.streamMessage with
  | none =>
      refine .inl ⟨?_, rfl⟩
      simp [Lands, hmessage]
  | some message =>
      have hlands : Lands edits reporter rendered ↔ edits = true ∧ message ≠ rendered := by
        simp [Lands, hmessage]
      by_cases htaken : edits = true ∧ message ≠ rendered
      · exact .inl ⟨hlands.mpr htaken, if_pos (by simpa using htaken)⟩
      · exact .inr ⟨fun hland => htaken (hlands.mp hland), if_neg (by simpa using htaken)⟩

theorem forgotten_upsert {edits : Bool} {later : Reporter}
    (h : upsertStreamMessage parse edits reporter text = some later) :
    later.forgotten = reporter.forgotten := by
  cases hchunks : renderHtml parse text with
  | nil =>
      rw [upsert_of_nil hchunks] at h
      cases h
      rfl
  | cons rendered more =>
      rcases upsert_of_cons reporter edits hchunks with ⟨-, hlater⟩ | ⟨-, hnone⟩
      · rw [hlater] at h
        cases h
        rfl
      · rw [hnone] at h
        cases h

/-- No call of `note_partial` forgets a message. -/
theorem forgotten_notePartial (reporter : Reporter) (note : Note) :
    (notePartial parse reporter note).forgotten = reporter.forgotten := by
  unfold notePartial
  dsimp only
  split_ifs
  all_goals try rfl
  cases hupsert :
      upsertStreamMessage parse note.edits reporter (strip (streamWindow note.fullText)) with
  | none => rfl
  | some later =>
      have hlater := forgotten_upsert hupsert
      exact hlater

/-- Nor does a history of calls. -/
theorem forgotten_foldl_notePartial (notes : List Note) (reporter : Reporter) :
    (notes.foldl (notePartial parse) reporter).forgotten = reporter.forgotten := by
  induction notes generalizing reporter with
  | nil => rfl
  | cons note notes ih => exact (ih _).trans (forgotten_notePartial reporter note)

/-! ### Once -/

/-- Up to spaces the text is a first part and then what has been given to `send_text`; the stream shows
all that the one says, and the messages sent all that the other does. -/
def CoversOnce (parse : Text → Forest true .blocks) (finalText : Text) (stream : List Text)
    (sent : Sent) : Prop :=
  ∃ before part between, Space before ∧ Space between ∧ strip part = part ∧
    finalText = before ++ part ++ between ++ sent.text ∧
    ShowsAll (wholeHtml parse part) stream ∧ ShowsAll (wholeHtml parse sent.text) sent.messages

/-- There is one first part only. -/
theorem coversOnce_iff {stream : List Text} {sent : Sent} (hpart : strip part = part)
    (hbetween : Space between) (hfinal : finalText = part ++ between ++ sent.text) :
    CoversOnce parse finalText stream sent ↔
      ShowsAll (wholeHtml parse part) stream ∧
        ShowsAll (wholeHtml parse sent.text) sent.messages := by
  constructor
  · rintro ⟨before, part', between', hbefore, hbetween', hpart', hfinal', hstream, hsent⟩
    have hsame := List.append_cancel_right (hfinal.symm.trans hfinal')
    have hstrip : strip ([] ++ part ++ between) = strip part :=
      strip_append_space space_nil hbetween
    rw [List.nil_append, hsame, strip_append_space hbefore hbetween', hpart', hpart] at hstrip
    exact ⟨hstrip ▸ hstream, hsent⟩
  · exact fun h => ⟨[], part, between, space_nil, hbetween, hpart, hfinal, h⟩

/-- What `send_response` sends comes after what it has been told was committed. -/
theorem sendResponse_text (parse : Text → Forest true .blocks) (finalText committed : Text)
    (spoken : Bool) :
    (sendResponse parse finalText committed false spoken).text =
        stripCommittedPrefix finalText committed ∧
      (sendResponse parse finalText committed false spoken).messages =
        renderHtml parse (stripCommittedPrefix finalText committed) := by
  unfold sendResponse
  rw [Bool.false_and, if_neg Bool.false_ne_true]
  dsimp only
  split
  · next hempty =>
      rw [List.isEmpty_iff.mp hempty]
      exact ⟨rfl, rfl⟩
  · exact ⟨rfl, rfl⟩

instance Solid.decidable : (text : Text) → Decidable (Solid text)
  | [] => .isTrue nofun
  | c :: _ => decidable_of_iff (isPythonSpace c = false)
      ⟨fun h _ hd => Option.some.inj hd ▸ h, fun h => h c rfl⟩

/-- What is to be sent after the window, for a text that begins with it and for one that does not. -/
def afterWindow (finalText : Text) : Text :=
  if Solid finalText then lstrip (finalText.drop (strip (streamWindow finalText)).length)
  else finalText

/-- What `finalize_stream` has to find, for the window that it shows. -/
def Fits (parse : Text → Forest true .blocks) (answers : Answers) (reporter : Reporter)
    (finalText : Text) : Prop :=
  let visible := strip (streamWindow finalText)
  if visible = [] then Quiet reporter ∧ CutsApart (wholeHtml parse finalText)
  else if hasUnclosedFence visible = true then
    (answers.deletes = true ∨ Quiet reporter) ∧ CutsApart (wholeHtml parse finalText)
  else
    match renderHtml parse visible with
    | [] => Quiet reporter ∧ CutsApart (wholeHtml parse (afterWindow finalText))
    | rendered :: _ =>
        (Lands answers.edits reporter rendered ∧
          (if Solid finalText then FirstIsAll (wholeHtml parse visible) else Blank rendered) ∧
          CutsApart (wholeHtml parse (afterWindow finalText))) ∨
        (¬Lands answers.edits reporter rendered ∧ Quiet reporter ∧
          CutsApart (wholeHtml parse finalText))

/-- A text that is sent whole is covered once just if nothing else is shown. -/
theorem coversOnce_whole (stream : Option Text) (spoken : Bool) :
    CoversOnce parse finalText stream.toList (sendResponse parse finalText [] false spoken) ↔
      (∀ message ∈ stream, Blank message) ∧ CutsApart (wholeHtml parse finalText) := by
  obtain ⟨htext, hmessages⟩ := sendResponse_text parse finalText [] spoken
  rw [stripCommittedPrefix_nil] at htext hmessages
  have hfinal : finalText = [] ++ [] ++ (sendResponse parse finalText [] false spoken).text :=
    htext.symm
  rw [coversOnce_iff rfl space_nil hfinal, htext, hmessages, showsAll_renderHtml]
  exact and_congr (showsAll_nil stream) Iff.rfl

/-- A text of which a window has been committed is covered once just if the stream shows the window,
or nothing where the text does not begin with it. -/
theorem coversOnce_window (hne : strip (streamWindow finalText) ≠ []) (stream : List Text)
    (spoken : Bool) :
    CoversOnce parse finalText stream
        (sendResponse parse finalText (strip (streamWindow finalText)) false spoken) ↔
      ShowsAll (if Solid finalText then wholeHtml parse (strip (streamWindow finalText)) else [])
        stream ∧ CutsApart (wholeHtml parse (afterWindow finalText)) := by
  obtain ⟨htext, hmessages⟩ := sendResponse_text parse finalText (strip (streamWindow finalText))
    spoken
  have hstarts := strip_window_starts hne
  unfold afterWindow
  by_cases hsolid : Solid finalText
  · obtain ⟨between, hbetween, hfinal⟩ := stripCommittedPrefix_of_isPrefix (hstarts.mpr hsolid)
    have hafter : stripCommittedPrefix finalText (strip (streamWindow finalText)) =
        lstrip (finalText.drop (strip (streamWindow finalText)).length) := by
      unfold stripCommittedPrefix
      rw [if_neg (by simpa using hne), if_neg (by simpa using hstarts.mpr hsolid)]
    rw [← htext] at hfinal
    rw [coversOnce_iff (strip_strip _) hbetween hfinal, htext, hmessages, showsAll_renderHtml,
      if_pos hsolid, if_pos hsolid, hafter]
  · rw [stripCommittedPrefix_of_not fun h => hsolid (hstarts.mp h)] at htext hmessages
    have hfinal : finalText = [] ++ [] ++ (sendResponse parse finalText
        (strip (streamWindow finalText)) false spoken).text := htext.symm
    rw [coversOnce_iff rfl space_nil hfinal, htext, hmessages, showsAll_renderHtml, if_neg hsolid,
      if_neg hsolid]
    rfl

/-! ### What `finalize_stream` does -/

theorem strip_streamWindow_nil : strip (streamWindow []) = [] := rfl

theorem finalizeStream_blank (h : strip (streamWindow finalText) = []) :
    finalizeStream parse answers reporter finalText = ([], reporter) := by
  unfold finalizeStream
  split
  · rfl
  · dsimp only
    rw [h, List.isEmpty_nil, if_pos rfl]

theorem finalizeStream_shown (h : strip (streamWindow finalText) ≠ []) :
    finalizeStream parse answers reporter finalText =
      if hasUnclosedFence (strip (streamWindow finalText)) = true then
        ([], deleteStreamMessage answers.deletes reporter)
      else
        ((upsertStreamMessage parse answers.edits reporter (strip (streamWindow finalText))).map
          fun later => (strip (streamWindow finalText),
            { later with streamText := strip (streamWindow finalText) })).getD ([], reporter) := by
  have hfinal : finalText ≠ [] := fun hnil => h (hnil ▸ strip_streamWindow_nil)
  unfold finalizeStream
  rw [if_neg (by simpa using hfinal)]
  dsimp only
  rw [if_neg (by simpa using h)]
  refine if_congr Iff.rfl rfl ?_
  cases upsertStreamMessage parse answers.edits reporter (strip (streamWindow finalText)) with
  | none => rfl
  | some later => rfl

/-- A message that could not be deleted is still in the chat. -/
theorem visible_delete {deletes : Bool} (h : reporter.forgotten = []) :
    (deleteStreamMessage deletes reporter).visible =
      (if deletes then none else reporter.streamMessage).toList := by
  unfold deleteStreamMessage
  cases hmessage : reporter.streamMessage with
  | none => simp [Reporter.visible, h, hmessage]
  | some message => cases deletes <;> simp [Reporter.visible, h]

/-! ### The whole run -/

/-- `finalize_stream` and `send_response`, from any reporter that has forgotten no message. -/
theorem coversOnce_iff_fits (h : reporter.forgotten = []) (spoken : Bool) :
    CoversOnce parse finalText (finalizeStream parse answers reporter finalText).2.visible
      (sendResponse parse finalText (finalizeStream parse answers reporter finalText).1 false
        spoken) ↔ Fits parse answers reporter finalText := by
  have hvisible : reporter.visible = reporter.streamMessage.toList := by
    rw [Reporter.visible, h, List.nil_append]
  unfold Fits
  dsimp only
  by_cases hblank : strip (streamWindow finalText) = []
  · rw [if_pos hblank, finalizeStream_blank hblank, hvisible]
    exact coversOnce_whole reporter.streamMessage spoken
  · rw [if_neg hblank, finalizeStream_shown hblank]
    by_cases hfence : hasUnclosedFence (strip (streamWindow finalText)) = true
    · rw [if_pos hfence, if_pos hfence, visible_delete h, coversOnce_whole]
      refine and_congr ?_ Iff.rfl
      cases answers.deletes with
      | false => simp [Quiet]
      | true => simp
    · rw [if_neg hfence, if_neg hfence]
      cases hchunks : renderHtml parse (strip (streamWindow finalText)) with
      | nil =>
          rw [upsert_of_nil hchunks]
          simp only [Option.map_some, Option.getD_some]
          rw [coversOnce_window hblank, wholeHtml_of_nil hchunks, ite_self]
          exact and_congr (hvisible ▸ showsAll_nil reporter.streamMessage) Iff.rfl
      | cons rendered more =>
          simp only
          rcases upsert_of_cons reporter answers.edits hchunks with ⟨hlands, hlater⟩ | ⟨hlands, hnone⟩
          · rw [hlater]
            simp only [Option.map_some, Option.getD_some]
            have hstream (shown : Text) : Reporter.visible { reporter with
                streamMessage := some rendered, streamText := shown } = [rendered] := by
              simp [Reporter.visible, h]
            have hfirst : ShowsAll (if Solid finalText then
                wholeHtml parse (strip (streamWindow finalText)) else []) [rendered] ↔
                (if Solid finalText then FirstIsAll (wholeHtml parse (strip (streamWindow finalText)))
                  else Blank rendered) := by
              split
              · exact showsAll_first hchunks
              · simpa using showsAll_nil (some rendered)
            rw [coversOnce_window hblank, ← hfirst]
            simp [hlands, hstream]
          · rw [hnone]
            simp only [Option.map_none, Option.getD_none]
            rw [hvisible, coversOnce_whole]
            simp [hlands, Quiet]

/-- **The final answer is shown once** just if `finalize_stream` finds what it has to. -/
theorem answer_shown_once (parse : Text → Forest true .blocks) (notes : List Note)
    (answers : Answers) (finalText : Text) (spoken : Bool) :
    CoversOnce parse finalText
      (finalizeStream parse answers (notes.foldl (notePartial parse) {}) finalText).2.visible
      (sendResponse parse finalText
        (finalizeStream parse answers (notes.foldl (notePartial parse) {}) finalText).1 false
        spoken) ↔
    Fits parse answers (notes.foldl (notePartial parse) {}) finalText :=
  coversOnce_iff_fits (forgotten_foldl_notePartial notes {}) spoken

/-- The parser on a line of plain text. -/
def plainLine (text : Text) : Forest true .blocks := .paragraph (.leaf (.text text) .nil) .nil

/-- A short answer that is already shown is sent once more. -/
theorem shown_answer_sent_again :
    ¬CoversOnce plainLine "Hi".toList
      (finalizeStream plainLine ⟨true, true⟩
        ([⟨"Hi".toList, 1000, true⟩].foldl (notePartial plainLine) {}) "Hi".toList).2.visible
      (sendResponse plainLine "Hi".toList
        (finalizeStream plainLine ⟨true, true⟩
          ([⟨"Hi".toList, 1000, true⟩].foldl (notePartial plainLine) {}) "Hi".toList).1 false
        false) := by
  have hmessage : ([⟨"Hi".toList, 1000, true⟩].foldl (notePartial plainLine) {}).streamMessage =
      some "Hi".toList := by decide +kernel
  have hchunks : renderHtml plainLine (strip (streamWindow "Hi".toList)) = ["Hi".toList] := by
    decide
  have hdisplays : Displays "Hi".toList "Hi".toList :=
    ⟨"Hi".toList.map .char, by unfold Markup.Reads; decide, by unfold Markup.Shows; decide⟩
  rw [coversOnce_iff_fits (forgotten_foldl_notePartial _ {})]
  unfold Fits
  dsimp only
  rw [if_neg (by decide), if_neg (by decide), hchunks]
  rintro (⟨hlands, -⟩ | ⟨-, hquiet, -⟩)
  · exact (hlands _ hmessage).2 rfl
  · obtain ⟨shown, hshown, hstrip⟩ := hquiet _ hmessage
    rw [← hdisplays.unique hshown] at hstrip
    exact absurd hstrip (by decide)

end CodexServer.Progress
