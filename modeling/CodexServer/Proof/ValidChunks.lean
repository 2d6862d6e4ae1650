import CodexServer.Proof.Chunking
import CodexServer.Proof.Markdown

/-!
# Valid messages

A message is balanced just if it is cut where the text has nothing open or, by force, where the text
is in the code of a block. So the chunks are messages that Telegram takes just if the text is
balanced and every cut of it falls so.
-/

open Markup

namespace CodexServer.Markdown

variable {text other rest sep : Text} {limit start place : Nat} {reopened forced nested : Bool}

theorem python_space_bare {c : Char} (h : isPythonSpace c = true) :
    c ≠ '<' ∧ c ≠ '>' ∧ c ≠ '&' ∧ c ≠ ';' := by
  refine ⟨?_, ?_, ?_, ?_⟩ <;>
    · rintro rfl
      exact absurd h (by decide)

theorem Space.bare (h : Space text) : Bare text := fun c hc =>
  ⟨(python_space_bare (h c hc)).1, (python_space_bare (h c hc)).2.1⟩

/-! ### Places in a text -/

variable {opened now later : List Element}

/-- Where these elements are open, the text leads to a place where those are, outside of all tags
and entities. -/
def Leads (opened : List Element) (text : Text) (now : List Element) : Prop :=
  ∃ pieces shown, Reads text pieces ∧ Shows character pieces shown ∧
    nest tags opened pieces = some now

theorem Leads.append (h : Leads opened text now) (hother : Leads now other later) :
    Leads opened (text ++ other) later := by
  obtain ⟨pieces, shown, hreads, hshows, hnest⟩ := h
  obtain ⟨more, last, hmore, hlast, hnested⟩ := hother
  refine ⟨pieces ++ more, shown ++ last, hreads.append hmore, hshows.append hlast, ?_⟩
  rw [nest_append, hnest]
  exact hnested

theorem Leads.split (h : Leads opened (text ++ other) later) (htext : Leads opened text now) :
    Leads now other later := by
  obtain ⟨all, shown, hreads, hshows, hnest⟩ := h
  obtain ⟨pieces, first, hpieces, hfirst, hnow⟩ := htext
  obtain ⟨more, hmore, rfl⟩ := hreads.split hpieces
  obtain ⟨last, hlast, rfl⟩ := hshows.split hfirst
  rw [nest_append, hnow] at hnest
  exact ⟨more, last, hmore, hlast, hnest⟩

theorem Leads.unique (h : Leads opened text now) (hother : Leads opened text later) :
    now = later := by
  obtain ⟨pieces, -, hreads, -, hnest⟩ := h
  obtain ⟨more, -, hmore, -, hnested⟩ := hother
  cases hreads.unique hmore
  exact Option.some.inj (hnest.symm.trans hnested)

theorem leads_space (h : Space text) : Leads opened text opened :=
  ⟨text.map .char, text, reads_bare h.bare,
    shows_chars fun hmem => (python_space_bare (h _ hmem)).2.2.1 rfl, nest_chars⟩

/-- An entity is not ended by space. -/
theorem decode_space {seen : Text} (h : Space text) : ∃ left,
    decode character (some seen) (text.map .char) = some ([], some left) := by
  induction text generalizing seen with
  | nil => exact ⟨seen, rfl⟩
  | cons c text ih =>
      obtain ⟨-, -, hand, hend⟩ := python_space_bare (h c List.mem_cons_self)
      have hrest : ∃ left, decode character (some (seen ++ [c])) (text.map .char) =
          some ([], some left) := ih fun d hd => h d (List.mem_cons_of_mem c hd)
      simpa [decode, hand, hend] using hrest

/-- Space at the end stands for itself. -/
theorem shows_before_space {pieces : List Piece} {shown : Text} (hother : Space other)
    (h : Shows character (pieces ++ other.map .char) shown) :
    ∃ before, Shows character pieces before ∧ shown = before ++ other := by
  have hplain : '&' ∉ other := fun hmem => (python_space_bare (hother _ hmem)).2.2.1 rfl
  have hshows := h
  unfold Shows at hshows
  rw [decode_append] at hshows
  obtain ⟨⟨before, seen⟩, hbefore, hafter⟩ := Option.bind_eq_some_iff.mp hshows
  cases seen with
  | none =>
      obtain ⟨after, hlast, hshown⟩ := h.split hbefore
      cases Option.some.inj (hlast.symm.trans (shows_chars hplain))
      exact ⟨before, hbefore, hshown⟩
  | some seen =>
      have hopen : ∃ left, decode character (some seen) (other.map .char) =
          some ([], some left) := decode_space hother
      obtain ⟨left, hleft⟩ := hopen
      simp [hleft] at hafter

/-- What a text shows, with its tags removed and its entities decoded. -/
def Displays (text shown : Text) : Prop := ∃ pieces, Reads text pieces ∧ Shows character pieces shown

variable {shown seen : Text}

theorem Displays.append (h : Displays text shown) (hother : Displays other seen) :
    Displays (text ++ other) (shown ++ seen) := by
  obtain ⟨pieces, hreads, hshows⟩ := h
  obtain ⟨more, hmore, hlater⟩ := hother
  exact ⟨pieces ++ more, hreads.append hmore, hshows.append hlater⟩

theorem Displays.split (h : Displays (text ++ other) seen) (htext : Displays text shown) :
    ∃ later, Displays other later ∧ seen = shown ++ later := by
  obtain ⟨all, hreads, hshows⟩ := h
  obtain ⟨pieces, hpieces, hfirst⟩ := htext
  obtain ⟨more, hmore, rfl⟩ := hreads.split hpieces
  obtain ⟨later, hlater, hshown⟩ := hshows.split hfirst
  exact ⟨later, ⟨more, hmore, hlater⟩, hshown⟩

theorem Displays.unique (h : Displays text shown) (hother : Displays text seen) : shown = seen := by
  obtain ⟨pieces, hreads, hshows⟩ := h
  obtain ⟨more, hmore, hlater⟩ := hother
  cases hreads.unique hmore
  cases Option.some.inj (hshows.symm.trans hlater)
  rfl

theorem displays_space (h : Space text) : Displays text text :=
  ⟨text.map .char, reads_bare h.bare,
    shows_chars fun hmem => (python_space_bare (h _ hmem)).2.2.1 rfl⟩

theorem Displays.of_append_space (h : Displays (text ++ other) seen) (hother : Space other) :
    ∃ before, Displays text before ∧ seen = before ++ other := by
  obtain ⟨pieces, hreads, hshows⟩ := h
  obtain ⟨first, hfirst, rfl⟩ := hreads.of_append_bare hother.bare
  obtain ⟨before, hbefore, hseen⟩ := shows_before_space hother hshows
  exact ⟨before, ⟨first, hfirst, hbefore⟩, hseen⟩

/-- The space at the start shows as it is. -/
theorem Displays.lstrip (h : Displays text shown) :
    ∃ later, Displays (Markdown.lstrip text) later ∧ shown = leading text ++ later := by
  rw [← leading_append_lstrip text] at h
  exact h.split (displays_space (space_leading text))

theorem Displays.rstrip (h : Displays text shown) :
    ∃ before, Displays (Markdown.rstrip text) before ∧ shown = before ++ trailing text := by
  rw [← rstrip_append_trailing text] at h
  exact h.of_append_space (space_trailing text)

theorem Leads.of_append_space (h : Leads opened (text ++ other) now) (hother : Space other) :
    Leads opened text now := by
  obtain ⟨pieces, shown, hreads, hshows, hnest⟩ := h
  obtain ⟨first, hfirst, rfl⟩ := hreads.of_append_bare hother.bare
  obtain ⟨before, hbefore, -⟩ := shows_before_space hother hshows
  rw [nest_append] at hnest
  obtain ⟨between, hbetween, hlast⟩ := Option.bind_eq_some_iff.mp hnest
  rw [nest_chars] at hlast
  cases hlast
  exact ⟨first, before, hfirst, hbefore, hbetween⟩

theorem leads_rstrip : Leads opened (rstrip text) now ↔ Leads opened text now := by
  obtain ⟨space, hspace, htext⟩ := rstrip_split text
  constructor
  · intro h
    rw [htext]
    exact h.append (leads_space hspace)
  · intro h
    rw [htext] at h
    exact h.of_append_space hspace

theorem leads_lstrip : Leads opened (lstrip text) now ↔ Leads opened text now := by
  obtain ⟨space, hspace, htext⟩ := lstrip_split text
  constructor
  · intro h
    rw [htext]
    exact (leads_space hspace).append h
  · intro h
    rw [htext] at h
    exact h.split (leads_space hspace)

theorem leads_codeOpen : Leads [] codeOpen [.code, .pre] :=
  ⟨[.tag "pre".toList, .tag "code".toList], [], by unfold Reads; decide, rfl, by decide⟩

theorem reads_codeClose :
    Reads codeClose [.tag "/code".toList, .tag "/pre".toList] := by
  unfold Reads
  decide

/-- The closing tags of a code block fit where its two elements are open. -/
theorem leads_codeClose : Leads [] (text ++ codeClose) [] ↔ Leads [] text [.code, .pre] := by
  constructor
  · rintro ⟨pieces, shown, hreads, hshows, hnest⟩
    have hclose : codeClose = '<' :: codeClose.tail := by decide
    obtain ⟨first, hfirst⟩ := Reads.of_append_open (hclose ▸ hreads)
    obtain ⟨more, hmore, rfl⟩ := hreads.split hfirst
    cases hmore.unique reads_codeClose
    obtain ⟨before, hbefore⟩ := Shows.of_append_tag hshows
    refine ⟨first, before, hfirst, hbefore, ?_⟩
    rw [nest_append] at hnest
    obtain ⟨between, hbetween, hlast⟩ := Option.bind_eq_some_iff.mp hnest
    rw [hbetween]
    have hsplit : [Piece.tag "/code".toList, .tag "/pre".toList] =
        [.tag "/code".toList] ++ [.tag "/pre".toList] := rfl
    rw [hsplit, nest_append] at hlast
    obtain ⟨middle, hmiddle, hend⟩ := Option.bind_eq_some_iff.mp hlast
    have hpre : middle = [Element.pre] := nest_closing_inv (by decide) (by decide) hend
    subst hpre
    have hcode : between = [Element.code, .pre] := nest_closing_inv (by decide) (by decide) hmiddle
    rw [hcode]
  · intro h
    refine h.append ⟨_, [], reads_codeClose, rfl, by decide⟩

/-! ### Messages -/

/-- A message that Telegram takes. -/
structure Valid (chunk : Text) : Prop where
  nonempty : chunk ≠ []
  length : chunk.length ≤ messageLimit
  balanced : Leads [] chunk []

/-- What is open at the start of a message before its tags, and at its end after them. -/
def inCode (forced : Bool) : List Element := if forced then [.code, .pre] else []

theorem leads_nil : Leads opened [] opened := ⟨[], [], .nil, rfl, rfl⟩

theorem leads_tagsBefore (reopened : Bool) : Leads [] (tagsBefore reopened) (inCode reopened) := by
  cases reopened with
  | false => exact leads_nil
  | true => exact leads_codeOpen

theorem leads_tagsAfter : Leads [] (text ++ tagsAfter forced) [] ↔ Leads [] text (inCode forced) := by
  cases forced with
  | false => simp [tagsAfter, inCode]
  | true => exact leads_codeClose

/-- What a message goes on with is open in the text before it. -/
theorem leads_rest (h : Leads [] (text.take start) (inCode reopened)) :
    Leads [] (tagsBefore reopened ++ other) now ↔ Leads [] (text.take start ++ other) now :=
  ⟨fun hrest => h.append (hrest.split (leads_tagsBefore reopened)),
    fun htext => (leads_tagsBefore reopened).append (htext.split h)⟩

/-- A message begins where the text has nothing open but the code of a block, if its tags are put
before it. -/
structure Sound (text : Text) (start : Nat) (reopened : Bool) : Prop where
  leads : Leads [] (text.take start) (inCode reopened)
  solid : Solid (restFrom text start reopened)

theorem solid_restFrom (text : Text) (place : Nat) (forced : Bool) :
    Solid (restFrom text (afterSpace text place) forced) := by
  unfold restFrom
  cases forced with
  | false =>
      rw [drop_afterSpace]
      exact solid_lstrip _
  | true => exact solid_codeOpen _

theorem leads_afterSpace (h : Leads [] (text.take place) now) :
    Leads [] (text.take (afterSpace text place)) now := by
  rw [take_afterSpace]
  exact h.append (leads_space (space_leading _))

theorem Sound.last (h : Sound text start reopened) (hbalanced : Leads [] text [])
    (hshort : (restFrom text start reopened).length ≤ messageLimit)
    (hne : restFrom text start reopened ≠ []) : Valid (restFrom text start reopened) := by
  refine ⟨hne, hshort, (leads_rest h.leads).mpr ?_⟩
  rwa [List.take_append_drop]

/-- What a message is before its tags are put after it. -/
theorem Sound.taken (h : Sound text start reopened)
    (hends : EndsAt messageLimit text start reopened place forced) :
    rstrip (tagsBefore reopened ++ (text.drop start).take (place - start)) ≠ [] ∧
      (rstrip (tagsBefore reopened ++ (text.drop start).take (place - start)) ++
        tagsAfter forced).length ≤ messageLimit := by
  have hroom : 24 < messageLimit := by decide
  have hclose := codeClose_length
  obtain ⟨hlt, hwithin, -⟩ := hends.spec hroom
  obtain ⟨cut, hcut, hplace⟩ := hends.cut
  obtain ⟨hpos, hle, hforced, -⟩ := hcut.bounds hroom
  have hstarts : tagsBefore reopened ++ (text.drop start).take (place - start) <+:
      restFrom text start reopened :=
    (List.prefix_append_right_inj _).mpr (List.take_prefix _ _)
  have hlength : (tagsBefore reopened ++ (text.drop start).take (place - start)).length = cut := by
    rw [List.length_append, List.length_take, List.length_drop]
    omega
  constructor
  · refine Solid.rstrip_ne_nil (solid_of_isPrefix h.solid hstarts) fun hnil => ?_
    rw [hnil, List.length_nil] at hlength
    omega
  · have hshort := length_rstrip_le (tagsBefore reopened ++ (text.drop start).take (place - start))
    rw [hlength] at hshort
    rw [List.length_append]
    cases forced with
    | false =>
        rw [tagsAfter, if_neg Bool.false_ne_true, List.length_nil]
        omega
    | true =>
        have hfits := hforced rfl
        rw [tagsAfter, if_pos rfl, hclose]
        unfold messageLimit at *
        omega

/-- **A message is valid** just if the text is cut clearly after it. -/
theorem Sound.cut (h : Sound text start reopened)
    (hends : EndsAt messageLimit text start reopened place forced) :
    (Valid (cutOff messageLimit (restFrom text start reopened)).1 ↔
        Leads [] (text.take place) (inCode forced)) ∧
      (Leads [] (text.take place) (inCode forced) → Sound text (afterSpace text place) forced) := by
  obtain ⟨hlt, -, hmessage, -⟩ := hends.spec (by decide)
  obtain ⟨hne, hlength⟩ := h.taken hends
  have hsplit : Leads [] (tagsBefore reopened ++ (text.drop start).take (place - start))
      (inCode forced) ↔ Leads [] (text.take place) (inCode forced) := by
    rw [leads_rest h.leads, ← take_eq_append hlt.le]
  rw [hmessage, ← hsplit]
  refine ⟨⟨fun hvalid => leads_rstrip.mp (leads_tagsAfter.mp hvalid.balanced), fun hclear => ?_⟩,
    fun hclear => ⟨leads_afterSpace (hsplit.mp hclear), solid_restFrom text place forced⟩⟩
  exact ⟨fun hnil => hne (List.append_eq_nil_iff.mp hnil).1, hlength,
    leads_tagsAfter.mpr (leads_rstrip.mpr hclear)⟩

/-- The messages of a text are balanced together only if the text is. -/
theorem balanced_of_messages {fuel : Nat} {chunks : List Text}
    (hsplit : splitFrom limit fuel rest = some chunks)
    (hall : ∀ chunk ∈ chunks, Leads [] chunk []) : Leads [] rest [] := by
  induction fuel generalizing rest chunks with
  | zero => cases hsplit
  | succ fuel ih =>
      unfold splitFrom at hsplit
      by_cases hlong : limit < rest.length
      · rw [if_pos hlong] at hsplit
        obtain ⟨more, hmore, rfl⟩ := Option.map_eq_some_iff.mp hsplit
        have hlater := ih hmore fun chunk hmem => hall chunk (List.mem_cons_of_mem _ hmem)
        have hfirst := hall _ List.mem_cons_self
        rw [← List.take_append_drop (safeCut rest limit).1 rest]
        unfold cutOff at hlater hfirst
        cases hforced : (safeCut rest limit).2 with
        | false =>
            simp only [hforced, Bool.false_eq_true, if_false] at hlater hfirst
            exact (leads_rstrip.mp hfirst).append (leads_lstrip.mp hlater)
        | true =>
            simp only [hforced, if_true] at hlater hfirst
            exact (leads_rstrip.mp (leads_codeClose.mp hfirst)).append
              (leads_lstrip.mp (hlater.split leads_codeOpen))
      · rw [if_neg hlong] at hsplit
        cases hsplit
        cases rest with
        | nil => exact leads_nil
        | cons c rest => exact hall (c :: rest) (by simp)

/-! ### What is rendered -/

theorem solid_strip (text : Text) : Solid (strip text) := (solid_lstrip text).rstrip

/-- What is rendered begins with no space and shows a text, and it is balanced where links are not
nested. -/
theorem renderedText_spec (blocks : Forest nested .blocks) : ∃ text shown,
    renderedText blocks = some text ∧ Solid text ∧ Displays text shown ∧
      (nested = false → Leads [] text []) := by
  obtain ⟨rendered, later, h⟩ := blocks.rendering {} .bullet 0 [] rfl rfl
  obtain ⟨pieces, text, hreads, hnest, -, hshows, -⟩ := h.formed.pieces
  have hdisplays : Displays (output rendered) text := ⟨pieces, hreads, hshows⟩
  obtain ⟨left, hleft, -⟩ := hdisplays.lstrip
  obtain ⟨shown, hshown, -⟩ := hleft.rstrip
  refine ⟨strip (output rendered), shown, by simp [renderedText, render, h.run, output],
    solid_strip _, hshown, fun hflat => ?_⟩
  exact leads_rstrip.mpr (leads_lstrip.mpr ⟨pieces, text, hreads, hshows, hnest hflat []⟩)

/-- **The chunks are valid messages** just if the text is balanced, as it is where links are not
nested, and every cut is a clear one: where nothing is open or, by force, where the code of a block
is and nothing else. -/
theorem chunks_are_valid (blocks : Forest nested .blocks) :
    ∃ text chunks, renderedText blocks = some text ∧
      splitChunks text messageLimit = some chunks ∧ (nested = false → Leads [] text []) ∧
      ((∀ chunk ∈ chunks, Valid chunk) ↔
        Leads [] text [] ∧ ∀ place forced, IsCut messageLimit text place forced →
          Leads [] (text.take place) (inCode forced)) := by
  have hroom : 24 < messageLimit := by decide
  obtain ⟨text, -, htext, hsolid, -, hbalanced⟩ := renderedText_spec blocks
  obtain ⟨chunks, hchunks⟩ := splitChunks_some hroom text
  have hsound : Sound text 0 false := ⟨leads_nil, hsolid⟩
  have hiff (hall : Leads [] text []) : (∀ chunk ∈ chunks, Valid chunk) ↔
      ∀ place forced, IsCut messageLimit text place forced →
        Leads [] (text.take place) (inCode forced) :=
    splitFrom_iff hroom Valid (Sound text) (fun place forced => Leads [] (text.take place)
      (inCode forced)) (fun h => h.last hall) (fun h hends => h.cut hends) hchunks hsound
  refine ⟨text, chunks, htext, hchunks, hbalanced, fun hvalid => ?_, fun h => (hiff h.1).mpr h.2⟩
  have hall := balanced_of_messages hchunks fun chunk hmem => (hvalid chunk hmem).balanced
  exact ⟨hall, (hiff hall).mp hvalid⟩

/-- A text without a space is cut by force. -/
theorem cutAt_unbroken (h : ∀ c ∈ text, isPythonSpace c = false) :
    CutAt text limit (limit - codeClose.length) true := by
  have hnone {sep : Text} {index : Nat} (hsep : sep ≠ [])
      (hspace : ∀ c ∈ sep, isPythonSpace c = true) (hstarts : sep <+: text.drop index) : False := by
    obtain ⟨c, more, rfl⟩ := List.exists_cons_of_ne_nil hsep
    have hmem : c ∈ text := List.mem_of_mem_drop (hstarts.subset List.mem_cons_self)
    exact absurd (hspace c List.mem_cons_self) (by simp [h c hmem])
  refine .room (fun place hparts => ?_) fun line hends => ?_
  · obtain ⟨sep, index, hsep, hspace, -, -, hstands⟩ := hparts.stands (spaced_separators limit)
    exact hnone hsep hspace hstands.starts
  · exact (hnone (by decide) newline_spaced hends.starts).elim

/-- A chunk that is cut by force, and the rest. -/
theorem cutOff_forced (h : safeCut rest limit = (place, true)) :
    cutOff limit rest =
      (rstrip (rest.take place) ++ codeClose, codeOpen ++ lstrip (rest.drop place)) := by
  unfold cutOff
  rw [h, if_pos rfl]

/-- A paragraph of one word. -/
def word (length : Nat) : Forest true .blocks :=
  .paragraph (.leaf (.text (List.replicate length 'a')) .nil) .nil

theorem space_a : isPythonSpace 'a' = false := by decide

theorem renderedText_word (length : Nat) :
    renderedText (word length) = some (List.replicate length 'a') := by
  have hescape : escape (List.replicate length 'a') = List.replicate length 'a' := by
    have ha : escapeChar 'a' = ['a'] := by decide
    simp [escape, List.flatMap_replicate, ha]
  have hend : "\n\n".toList.reverse.dropWhile isPythonSpace = [] := by decide
  have hstrip : strip (List.replicate length 'a' ++ "\n\n".toList) = List.replicate length 'a' := by
    unfold strip lstrip rstrip
    cases length with
    | zero => decide
    | succ length =>
        rw [List.replicate_succ, List.cons_append, List.dropWhile_cons_of_neg (by simp [space_a]),
          ← List.cons_append, ← List.replicate_succ, List.rdropWhile, List.reverse_append,
          List.dropWhile_append, hend]
        simp only [List.isEmpty_nil, if_true, List.reverse_replicate]
        rw [List.replicate_succ, List.dropWhile_cons_of_neg (by simp [space_a]),
          ← List.replicate_succ, List.reverse_replicate]
  have hrender : renderedText (word length) =
      some (strip (escape (List.replicate length 'a') ++ [] ++ "\n\n".toList)) := by
    simp [renderedText, word, render, renderEach, rule, Forest.tokens, Line.tokens,
      InlineLeaf.token, renderInline, inlineRule, paragraphClose]
  rw [hrender, List.append_nil, hescape, hstrip]

theorem leads_replicate_a (length : Nat) : Leads [] (List.replicate length 'a') [] := by
  have hplain : Plain (List.replicate length 'a') := plain_replicate (by decide) _
  exact ⟨_, _, reads_bare fun c hc => ⟨(hplain c hc).1, (hplain c hc).2.1⟩,
    shows_chars fun hmem => (hplain _ hmem).2.2 rfl, nest_chars⟩

/-- A word that is longer than a message is cut by force, outside of any code block. -/
theorem long_word_unbalanced : ∃ text chunks, renderedText (word 5000) = some text ∧
    splitChunks text messageLimit = some chunks ∧ ∃ chunk ∈ chunks, ¬Valid chunk := by
  have hword : ∀ c ∈ List.replicate 5000 'a', isPythonSpace c = false := fun c hc => by
    rw [List.eq_of_mem_replicate hc]
    exact space_a
  have hcut : safeCut (List.replicate 5000 'a') messageLimit = (4083, true) :=
    cutAt_iff.mp (cutAt_unbroken hword)
  have hlong : messageLimit < (List.replicate 5000 'a').length := by
    rw [List.length_replicate]
    decide
  obtain ⟨chunks, hchunks⟩ := splitChunks_some (show 24 < messageLimit by decide)
    (List.replicate 5000 'a')
  refine ⟨_, chunks, renderedText_word 5000, hchunks,
    (cutOff messageLimit (List.replicate 5000 'a')).1, ?_, fun hvalid => ?_⟩
  · unfold splitChunks splitFrom at hchunks
    rw [if_pos hlong] at hchunks
    obtain ⟨more, -, rfl⟩ := Option.map_eq_some_iff.mp hchunks
    exact List.mem_cons_self
  · have hbalanced := hvalid.balanced
    rw [cutOff_forced hcut] at hbalanced
    have hopen := leads_rstrip.mp (leads_codeClose.mp hbalanced)
    rw [List.take_replicate] at hopen
    cases hopen.unique (leads_replicate_a _)

end CodexServer.Markdown
