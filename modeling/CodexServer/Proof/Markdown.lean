import CodexServer.Markdown
import CodexServer.Library.Markup

/-!
# Well-formed Telegram HTML

Whatever nesting of blocks and spans the parser yields is rendered as HTML that is balanced by itself,
shows what the tokens have, and leaves the state of the renderer as it was. The numbers of the items
come from the entries of the list stack.
-/

open Markup

namespace CodexServer.Markdown

/-! ### The HTML that is wanted -/

inductive Element
  | b
  | i
  | s
  | code
  | pre
  | a
  | blockquote
deriving DecidableEq

/-- The value of the attribute that ends a tag. -/
def quoted (start inside : Text) : Option Text :=
  if start <+: inside ∧ (inside.drop start.length).getLast? = some '"' ∧
      '"' ∉ (inside.drop start.length).dropLast
  then some (inside.drop start.length).dropLast else none

def codeClass : Text := "code class=\"language-".toList

def anchor : Text := "a href=\"".toList

/-- The tags without an attribute. -/
def bareTags : List (Text × Element) :=
  [("b".toList, .b), ("i".toList, .i), ("s".toList, .s), ("code".toList, .code),
    ("pre".toList, .pre), ("blockquote".toList, .blockquote)]

def closingTags : List (Text × Element) :=
  [("/b".toList, .b), ("/i".toList, .i), ("/s".toList, .s), ("/code".toList, .code),
    ("/pre".toList, .pre), ("/a".toList, .a), ("/blockquote".toList, .blockquote)]

def tags : Vocabulary Element where
  opening inside :=
    match bareTags.lookup inside with
    | some element => some element
    | none =>
        if (quoted codeClass inside).isSome then some .code
        else if (quoted anchor inside).isSome then some .a
        else none
  closing inside := closingTags.lookup inside

/-- `html.unescape` of the entities that `html.escape` writes. -/
def character (name : Text) : Option Char :=
  [("amp".toList, '&'), ("lt".toList, '<'), ("gt".toList, '>'), ("quot".toList, '"'),
    ("#x27".toList, '\'')].lookup name

/-- An address has an allowed scheme, whatever the case. -/
def Allowed (value : Text) : Prop :=
  ∃ scheme rest, scheme.map Char.toLower ∈ allowedLinkSchemes ∧ value = scheme ++ ':' :: rest

/-- The tag has an allowed address, escaped. -/
def Linked (inside : Text) : Prop :=
  ∃ href, inside = anchor ++ escape href ++ "\"".toList ∧ Allowed href

/-- The contents stand in the text, one after the other. -/
def InOrder : List Text → Text → Prop
  | [], _ => True
  | content :: contents, text =>
      ∃ before after, text = before ++ content ++ after ∧ InOrder contents after

theorem InOrder.append {contents others : List Text} {text other : Text}
    (h : InOrder contents text) (hother : InOrder others other) :
    InOrder (contents ++ others) (text ++ other) := by
  induction contents generalizing text with
  | nil =>
      cases others with
      | nil => trivial
      | cons content others =>
          obtain ⟨before, after, rfl, hafter⟩ := hother
          exact ⟨text ++ before, after, by simp, hafter⟩
  | cons content contents ih =>
      obtain ⟨before, after, rfl, hafter⟩ := h
      exact ⟨before, after ++ other, by simp, ih hafter⟩

/-- HTML that is balanced by itself where links are not nested, and has the contents in order. -/
structure Formed (nested : Bool) (html : Text) (contents : List Text) : Prop where
  pieces : ∃ pieces text, Reads html pieces ∧
    (nested = false → ∀ opened, nest tags opened pieces = some opened) ∧
    (∀ inside, .tag inside ∈ pieces → tags.opening inside = some .a → Linked inside) ∧
    Shows character pieces text ∧ InOrder contents text

variable {nested : Bool} {html other : Text} {contents others : List Text}

theorem Formed.append (h : Formed nested html contents) (hother : Formed nested other others) :
    Formed nested (html ++ other) (contents ++ others) := by
  obtain ⟨pieces, text, hreads, hnest, hlinked, hshows, horder⟩ := h.pieces
  obtain ⟨more, later, hmore, hnested, hlinks, hshown, hlater⟩ := hother.pieces
  refine ⟨⟨pieces ++ more, text ++ later, hreads.append hmore, fun hflat opened => ?_,
    fun inside hmem => ?_, hshows.append hshown, horder.append hlater⟩⟩
  · rw [nest_append, hnest hflat]
    exact hnested hflat opened
  · rcases List.mem_append.mp hmem with hleft | hright
    · exact hlinked inside hleft
    · exact hlinks inside hright

/-- Text with neither tags nor entities. -/
def Plain (text : Text) : Prop := ∀ c ∈ text, c ≠ '<' ∧ c ≠ '>' ∧ c ≠ '&'

instance Plain.decidable (text : Text) : Decidable (Plain text) := List.decidableBAll _ text

theorem formed_bare (hbare : Bare html) {text : Text} (hshows : Shows character (html.map .char) text)
    (horder : InOrder contents text) : Formed nested html contents := by
  refine ⟨⟨html.map .char, text, reads_bare hbare, fun _ _ => nest_chars, fun inside hmem => ?_,
    hshows, horder⟩⟩
  simp at hmem

theorem Plain.formed (h : Plain html) : Formed nested html [] :=
  formed_bare (fun c hc => ⟨(h c hc).1, (h c hc).2.1⟩)
    (shows_chars fun hmem => (h _ hmem).2.2 rfl) trivial

theorem formed_nil : Formed nested [] [] := Plain.formed fun _ h => by cases h

theorem closes_tag : ∀ {closing : Text} {element : Element}, (closing, element) ∈ closingTags →
    tags.opening closing = none ∧ tags.closing closing = some element ∧ Bare closing := by
  have hall : ∀ entry ∈ closingTags, tags.opening entry.1 = none ∧
      tags.closing entry.1 = some entry.2 ∧ Bare entry.1 := by
    decide
  exact @fun closing element hmem => hall (closing, element) hmem

/-- A text in an element. -/
theorem Formed.element (h : Formed nested html contents) {opening closing : Text} {element : Element}
    (hbare : Bare opening) (hopens : tags.opening opening = some element)
    (hlinked : element = .a → Linked opening)
    (hclosing : (closing, element) ∈ closingTags) :
    Formed nested ('<' :: (opening ++ ['>']) ++ html ++ '<' :: (closing ++ ['>'])) contents := by
  obtain ⟨pieces, text, hreads, hnest, hlinks, hshows, horder⟩ := h.pieces
  have hclosed := closes_tag hclosing
  refine ⟨⟨[.tag opening] ++ pieces ++ [.tag closing], text,
    ((reads_tag hbare).append hreads).append (reads_tag hclosed.2.2), fun hflat opened => ?_,
    fun inside hmem hanchor => ?_, ?_, horder⟩⟩
  · rw [nest_append, nest_append, nest_opening hopens, Option.bind_some, hnest hflat,
      Option.bind_some, nest_closing hclosed.1 hclosed.2.1]
  · simp only [List.mem_append, List.mem_singleton, Piece.tag.injEq] at hmem
    rcases hmem with (rfl | hmem) | rfl
    · exact hlinked (Option.some.inj (hopens.symm.trans hanchor))
    · exact hlinks inside hmem hanchor
    · rw [hclosed.1] at hanchor
      cases hanchor
  · have hopening : Shows character [.tag opening] [] := shows_tag opening
    simpa using (hopening.append hshows).append (shows_tag closing)

/-! ### Escaped content -/

theorem bare_escapeChar (c : Char) : Bare (escapeChar c) := by
  unfold escapeChar
  repeat' split
  any_goals (decide)
  intro d hd
  obtain rfl := List.mem_singleton.mp hd
  exact ⟨‹_›, ‹_›⟩

theorem shows_escapeChar (c : Char) : Shows character ((escapeChar c).map .char) [c] := by
  unfold escapeChar
  repeat' split
  any_goals (subst c; unfold Shows; decide)
  exact shows_chars fun hmem => ‹c ≠ '&'› (List.mem_singleton.mp hmem).symm

theorem bare_escape (content : Text) : Bare (escape content) := by
  intro d hd
  obtain ⟨c, -, hc⟩ := List.mem_flatMap.mp hd
  exact bare_escapeChar c d hc

theorem shows_escape (content : Text) : Shows character ((escape content).map .char) content := by
  induction content with
  | nil => rfl
  | cons c content ih =>
      have hfirst := (shows_escapeChar c).append ih
      rwa [← List.map_append] at hfirst

theorem quote_notMem_escape (content : Text) : '"' ∉ escape content := by
  intro hmem
  obtain ⟨c, -, hc⟩ := List.mem_flatMap.mp hmem
  unfold escapeChar at hc
  repeat' split at hc
  any_goals (revert hc; decide)
  exact ‹c ≠ '"'› (List.mem_singleton.mp hc).symm

theorem formed_escape (content : Text) : Formed nested (escape content) [content] :=
  formed_bare (bare_escape content) (shows_escape content) ⟨[], [], by simp, trivial⟩

theorem quoted_eq {start value : Text} (h : '"' ∉ value) :
    quoted start (start ++ value ++ "\"".toList) = some value := by
  have hrest : (start ++ value ++ "\"".toList).drop start.length = value ++ "\"".toList := by
    simp
  unfold quoted
  rw [hrest, if_pos ⟨⟨value ++ "\"".toList, by simp⟩, by simp, by simpa using h⟩]
  simp

theorem opening_quoted {inside : Text} (h : '"' ∈ inside) : tags.opening inside =
    if (quoted codeClass inside).isSome then some .code
    else if (quoted anchor inside).isSome then some .a else none := by
  have hall : ∀ entry ∈ bareTags, '"' ∉ entry.1 := by decide
  have hlookup : bareTags.lookup inside = none := by
    refine List.lookup_eq_none_iff.mpr fun entry hmem => bne_iff_ne.mpr fun heq => ?_
    exact hall entry hmem (heq ▸ h)
  simp only [tags, hlookup]

theorem opening_codeClass (lang : Text) :
    tags.opening (codeClass ++ escape lang ++ "\"".toList) = some .code := by
  rw [opening_quoted (by simp), quoted_eq (quote_notMem_escape lang)]
  rfl

theorem quoted_codeClass_anchor (rest : Text) : quoted codeClass (anchor ++ rest) = none := by
  refine if_neg fun hbegins => ?_
  obtain ⟨more, hmore⟩ := hbegins.1
  have hcode : codeClass.head? = some 'c' := by decide
  have hanchor : anchor.head? = some 'a' := by decide
  have hhead := congrArg List.head? hmore
  simp [List.head?_append, hcode, hanchor] at hhead

theorem opening_anchor (href : Text) :
    tags.opening (anchor ++ escape href ++ "\"".toList) = some .a := by
  rw [opening_quoted (by simp), quoted_eq (quote_notMem_escape href), List.append_assoc,
    quoted_codeClass_anchor]
  rfl

/-! ### Spans -/

def opensTag (name : Text) : Text := '<' :: (name ++ ['>'])

def closesTag (name : Text) : Text := '<' :: ('/' :: name ++ ['>'])

theorem Formed.bareElement (h : Formed nested html contents) {name : Text} {element : Element}
    (hname : (name, element) ∈ bareTags) :
    Formed nested (opensTag name ++ html ++ closesTag name) contents := by
  have hall : ∀ entry ∈ bareTags, Bare entry.1 ∧ tags.opening entry.1 = some entry.2 ∧
      entry.2 ≠ .a ∧ ('/' :: entry.1, entry.2) ∈ closingTags := by
    decide
  obtain ⟨hbare, hopens, hne, hcloses⟩ := hall (name, element) hname
  exact h.element hbare hopens (fun ha => absurd ha hne) hcloses

/-- Neither a control character nor a space is left in an address. -/
theorem encoded_large {c : Char} (h : isEncoded c = true) : 32 < c.toNat := by
  unfold isEncoded at h
  rcases Bool.or_eq_true_iff.mp h with halnum | hmem
  · have hall : ∀ code : Fin 33, (Char.ofNat code).isAlphanum = false := by decide
    by_contra hsmall
    have hfalse := hall ⟨c.toNat, by omega⟩
    rw [Char.ofNat_toNat] at hfalse
    cases hfalse.symm.trans halnum
  · have hall : (";/?:@&=+$,-_.!~*'()#%".toList.all fun d => decide (32 < d.toNat)) = true := by
      decide
    exact of_decide_eq_true (List.all_eq_true.mp hall c (by simpa using hmem))

/-- So `urlsplit` strips nothing of it. -/
theorem href_stays (href : Href) :
    ((href.value.dropWhile fun c => c.toNat ≤ 32).filter fun c =>
      c ≠ '\t' && c ≠ '\r' && c ≠ '\n') = href.value := by
  have hdrop : href.value.dropWhile (fun c => decide (c.toNat ≤ 32)) = href.value := by
    cases hvalue : href.value with
    | nil => rfl
    | cons c rest =>
        have hc := encoded_large (href.encoded c (by simp [hvalue]))
        rw [List.dropWhile_cons_of_neg (by simpa using hc)]
  rw [hdrop, List.filter_eq_self]
  intro c hc
  have hlarge := encoded_large (href.encoded c hc)
  have hne (d : Char) (hd : d.toNat ≤ 32) : c ≠ d := fun heq => by
    subst heq
    omega
  simp [hne '\t' (by decide), hne '\r' (by decide), hne '\n' (by decide)]

theorem takeWhile_ne_append {d : Char} {text : Text}
    (h : (text.takeWhile fun c => c ≠ d).length < text.length) :
    ∃ rest, text = (text.takeWhile fun c => c ≠ d) ++ d :: rest := by
  induction text with
  | nil => simp at h
  | cons c text ih =>
      by_cases hc : c = d
      · exact ⟨text, by simp [hc]⟩
      · simp only [ne_eq, hc, not_false_eq_true, decide_true, List.takeWhile_cons_of_pos,
          List.length_cons, Nat.add_lt_add_iff_right] at h
        obtain ⟨rest, hrest⟩ := ih h
        refine ⟨rest, ?_⟩
        rw [List.takeWhile_cons_of_pos (by simpa using hc), List.cons_append, ← hrest]

theorem allowed_of_urlScheme (href : Href) (h : urlScheme href.value ∈ allowedLinkSchemes) :
    Allowed href.value := by
  unfold urlScheme at h
  simp only [href_stays] at h
  split at h
  · next hscheme =>
      simp only [Bool.and_eq_true, decide_eq_true_eq] at hscheme
      obtain ⟨rest, hrest⟩ := takeWhile_ne_append hscheme.1.1
      exact ⟨_, rest, h, hrest⟩
  · exact absurd h (by decide)

theorem bare_anchor (href : Text) : Bare (anchor ++ escape href ++ "\"".toList) :=
  Bare.append (Bare.append (by decide) (bare_escape _)) (by decide)

theorem linked_anchor {href : Href} (hallowed : urlScheme href.value ∈ allowedLinkSchemes) :
    Linked (anchor ++ escape href.value ++ "\"".toList) :=
  ⟨href.value, rfl, allowed_of_urlScheme href hallowed⟩

theorem anchor_tag (href : Text) : "<a href=\"".toList ++ escape href ++ "\">".toList =
    '<' :: (anchor ++ escape href ++ "\"".toList ++ ['>']) := by
  have hstart : "<a href=\"".toList = '<' :: anchor := by decide
  have hend : "\">".toList = "\"".toList ++ ['>'] := by decide
  rw [hstart, hend]
  simp

theorem anchor_end : "</a>".toList = '<' :: ("/a".toList ++ ['>']) := by decide

/-- What is between the tags of a link. -/
theorem Formed.anchor (h : Formed nested html contents) {href : Href}
    (hallowed : urlScheme href.value ∈ allowedLinkSchemes) :
    Formed nested ("<a href=\"".toList ++ escape href.value ++ "\">".toList ++ html ++ "</a>".toList)
      contents := by
  have hclosing : ("/a".toList, Element.a) ∈ closingTags := by decide
  rw [anchor_tag, anchor_end]
  exact h.element (bare_anchor _) (opening_anchor href.value) (fun _ => linked_anchor hallowed)
    hclosing

/-- A tag alone, where links are nested. -/
theorem formed_tag {inside : Text} (hbare : Bare inside)
    (hlinked : tags.opening inside = some .a → Linked inside) :
    Formed true ('<' :: (inside ++ ['>'])) [] := by
  refine ⟨⟨[.tag inside], [], reads_tag hbare, nofun, fun other hmem => ?_, shows_tag inside,
    trivial⟩⟩
  cases List.mem_singleton.mp hmem
  exact hlinked

/-- The rule of a link, where links are nested: it emits a tag or counts a link to skip. -/
theorem linkOpen_spec (env : Env) (href : Option Href) : ∃ html skip,
    linkOpen env href = (html, { env with skipLinkClose := skip }) ∧
      skip ≤ env.skipLinkClose + 1 ∧ Formed true html [] := by
  unfold linkOpen
  dsimp only
  split
  · next hallowed =>
      cases href with
      | none => exact absurd hallowed (by decide)
      | some href =>
          refine ⟨_, env.skipLinkClose, rfl, Nat.le_succ _, ?_⟩
          simp only [Option.map_some, Option.getD_some] at hallowed ⊢
          rw [anchor_tag]
          exact formed_tag (bare_anchor _) fun _ => linked_anchor hallowed
  · exact ⟨[], _, rfl, le_rfl, formed_nil⟩

theorem linkClose_spec (env : Env) : ∃ html skip,
    linkClose env = (html, { env with skipLinkClose := skip }) ∧
      skip = env.skipLinkClose - 1 ∧ Formed true html [] := by
  unfold linkClose
  split
  · next hzero =>
      refine ⟨_, env.skipLinkClose, rfl, by omega, ?_⟩
      have hcloses : tags.opening "/a".toList ≠ some .a := by decide
      rw [anchor_end]
      exact formed_tag (by decide) fun hopens => absurd hopens hcloses
  · exact ⟨[], _, rfl, rfl, formed_nil⟩

theorem formed_codeInline (content : Text) : Formed nested (codeInline content) [content] := by
  have hname : ("code".toList, Element.code) ∈ bareTags := by decide
  exact (formed_escape content).bareElement hname

def InlineLeaf.shown : InlineLeaf → List Text
  | text content | codeInline content | image content => [content]
  | softbreak | hardbreak => []

theorem plain_newline : Plain "\n".toList := by decide

theorem InlineLeaf.formed (leaf : InlineLeaf) (env : Env) :
    ∃ html, inlineRule env leaf.token = (html, env) ∧ Formed nested html leaf.shown := by
  cases leaf with
  | text content => exact ⟨_, rfl, formed_escape content⟩
  | softbreak | hardbreak => exact ⟨_, rfl, plain_newline.formed⟩
  | codeInline content => exact ⟨_, rfl, formed_codeInline content⟩
  | image content => exact ⟨_, rfl, formed_escape content⟩

theorem renderInline_append (env : Env) (tokens others : List InlineToken) :
    renderInline env (tokens ++ others) =
      ((renderInline env tokens).1 ++ (renderInline (renderInline env tokens).2 others).1,
        (renderInline (renderInline env tokens).2 others).2) := by
  induction tokens generalizing env with
  | nil => rfl
  | cons token tokens ih => simp only [List.cons_append, renderInline, ih, List.append_assoc]

theorem Emphasis.rules (style : Emphasis) : ∃ name element, (name, element) ∈ bareTags ∧
    ∀ env, inlineRule env style.opens = (opensTag name, env) ∧
      inlineRule env style.closes = (closesTag name, env) := by
  cases style with
  | strong => exact ⟨"b".toList, .b, by decide, fun _ => ⟨rfl, rfl⟩⟩
  | em => exact ⟨"i".toList, .i, by decide, fun _ => ⟨rfl, rfl⟩⟩
  | s => exact ⟨"s".toList, .s, by decide, fun _ => ⟨rfl, rfl⟩⟩

/-- All that is to be seen of a row of inline tokens. -/
def Line.shown : {linked : Bool} → Line nested linked → List Text
  | _, nil => []
  | _, leaf inner rest => inner.shown ++ rest.shown
  | _, emphasis _ body rest => body.shown ++ rest.shown
  | _, link _ body rest => body.shown ++ rest.shown

/-- A link that is skipped is skipped to its end if none begins inside of it, and else no later. -/
theorem Line.formed {linked : Bool} (line : Line nested linked) (env : Env)
    (h : nested = false → linked = false → env.skipLinkClose = 0) :
    ∃ html skip, renderInline env line.tokens = (html, { env with skipLinkClose := skip }) ∧
      skip ≤ env.skipLinkClose ∧ (nested = false → skip = env.skipLinkClose) ∧
      Formed nested html line.shown := by
  induction line generalizing env with
  | nil => exact ⟨[], env.skipLinkClose, rfl, le_rfl, fun _ => rfl, formed_nil⟩
  | leaf inner rest ih =>
      obtain ⟨first, hfirst, hformed⟩ := inner.formed env
      obtain ⟨last, skip, hlast, hle, hsame, hrest⟩ := ih env h
      refine ⟨first ++ last, skip, ?_, hle, hsame, hformed.append hrest⟩
      simp only [Line.tokens, renderInline, hfirst, hlast]
  | emphasis style body rest ihbody ihrest =>
      obtain ⟨name, element, hname, hrules⟩ := style.rules
      obtain ⟨inner, between, hinner, hbetween, hkept, hbody⟩ := ihbody env h
      obtain ⟨last, skip, hlast, hle, hsame, hrest⟩ := ihrest { env with skipLinkClose := between }
        fun hflat hout => (hkept hflat).trans (h hflat hout)
      refine ⟨opensTag name ++ inner ++ closesTag name ++ last, skip, ?_, hle.trans hbetween,
        fun hflat => (hsame hflat).trans (hkept hflat), (hbody.bareElement hname).append hrest⟩
      simp only [Line.tokens, renderInline, renderInline_append, (hrules _).1, hinner,
        (hrules _).2, hlast, List.append_assoc]
  | link href body rest ihbody ihrest =>
      cases nested with
      | true =>
          obtain ⟨opening, opened, hopens, hmore, hopening⟩ := linkOpen_spec env href
          obtain ⟨inner, between, hinner, hbetween, -, hbody⟩ :=
            ihbody { env with skipLinkClose := opened } nofun
          obtain ⟨closing, closed, hcloses, hfewer, hclosing⟩ :=
            linkClose_spec { env with skipLinkClose := between }
          obtain ⟨last, skip, hlast, hle, -, hrest⟩ :=
            ihrest { env with skipLinkClose := closed } nofun
          refine ⟨opening ++ (inner ++ (closing ++ last)), skip, ?_, ?_, nofun,
            hopening.append (hbody.append (hclosing.append hrest))⟩
          · simp only [Line.tokens, renderInline, renderInline_append, inlineRule, hopens, hinner,
              hcloses, hlast]
          · simp only at hbetween hfewer hle
            omega
      | false =>
          have hskip : env.skipLinkClose = 0 := h rfl rfl
          obtain ⟨last, skip, hlast, hle, hsame, hrest⟩ := ihrest env h
          by_cases hallowed : urlScheme ((href.map Href.value).getD []) ∈ allowedLinkSchemes
          · obtain ⟨inner, between, hinner, -, hkept, hbody⟩ := ihbody env (by simp)
            cases href with
            | none => exact absurd hallowed (by decide)
            | some href =>
                refine ⟨_, skip, ?_, hle, hsame, (hbody.anchor hallowed).append hrest⟩
                obtain rfl := hkept rfl
                simp only [Option.map_some, Option.getD_some] at hallowed
                simp only [Line.tokens, renderInline, renderInline_append, inlineRule, linkOpen,
                  Option.map_some, Option.getD_some, if_pos hallowed, hinner, linkClose,
                  if_pos hskip, hlast, List.append_assoc]
          · obtain ⟨inner, between, hinner, -, hkept, hbody⟩ :=
              ihbody { env with skipLinkClose := 1 } (by simp)
            refine ⟨inner ++ last, skip, ?_, hle, hsame, hbody.append hrest⟩
            have hback : ({ env with skipLinkClose := 0 } : Env) = env := by
              rw [← hskip]
            have hone : between = 1 := hkept rfl
            simp only [Line.tokens, renderInline, renderInline_append, inlineRule, linkOpen,
              if_neg hallowed, hskip, Nat.zero_add, hinner, hone, linkClose, Nat.one_ne_zero,
              if_false, Nat.sub_self, hback, hlast, List.nil_append]

/-- A row outside of links, where no link is being skipped. -/
theorem Line.rendering (line : Line nested false) {env : Env} (hskip : env.skipLinkClose = 0) :
    ∃ html, renderInline env line.tokens = (html, env) ∧ Formed nested html line.shown := by
  obtain ⟨html, skip, hline, hle, -, hformed⟩ := line.formed env fun _ _ => hskip
  have hsame : skip = env.skipLinkClose := by omega
  exact ⟨html, by rw [hline, hsame], hformed⟩

/-! ### Blocks -/

/-- What `fence` and `code_block` put around the code. -/
theorem formed_pre {code : Text} (h : Formed nested code contents) :
    Formed nested ("<pre>".toList ++ code ++ "</pre>\n\n".toList) contents := by
  have hname : ("pre".toList, Element.pre) ∈ bareTags := by decide
  have hend : Plain "\n\n".toList := by decide
  have hclose : "</pre>\n\n".toList = closesTag "pre".toList ++ "\n\n".toList := by
    simp [closesTag]
  have hpre := (h.bareElement hname).append hend.formed
  rw [hclose, ← List.append_assoc]
  rwa [List.append_nil] at hpre

theorem formed_codeBlock (content : Text) :
    Formed nested (codeBlock content) [rstripNewlines content] := by
  have hinline : Formed nested _ _ := formed_codeInline (rstripNewlines content)
  have hcode := formed_pre hinline
  have hopens : "<pre><code>".toList = "<pre>".toList ++ "<code>".toList := by simp
  have hcloses : "</code></pre>\n\n".toList =
      "</code>".toList ++ "</pre>\n\n".toList := by simp
  unfold codeBlock
  rw [hopens, hcloses]
  unfold codeInline at hcode
  simp only [List.append_assoc] at hcode ⊢
  exact hcode

theorem formed_fence (info content : Text) :
    Formed nested (fence info content) [rstripNewlines content] := by
  have hcloses : "</code></pre>\n\n".toList =
      "</code>".toList ++ "</pre>\n\n".toList := by simp
  unfold fence
  dsimp only
  generalize (strip info).takeWhile (fun c => !isPythonSpace c) = lang
  by_cases hlang : lang.isEmpty
  · have hopens : "<pre><code".toList ++ ">".toList = "<pre><code>".toList := by simp
    rw [if_pos hlang, List.append_nil, hopens]
    exact formed_codeBlock content
  · have hbare : Bare (codeClass ++ escape lang ++ "\"".toList) :=
      Bare.append (Bare.append (by decide) (bare_escape _)) (by decide)
    have hclosing : ("/code".toList, Element.code) ∈ closingTags := by decide
    have hbody : Formed nested _ _ := formed_escape (rstripNewlines content)
    have hcode := formed_pre (hbody.element hbare (opening_codeClass lang) (by simp) hclosing)
    have hopens : "<pre><code".toList ++ " class=\"language-".toList =
        "<pre>".toList ++ '<' :: codeClass := by decide +kernel
    have hclose : "</code>".toList = '<' :: ("/code".toList ++ ['>']) := by decide
    have hend : ">".toList = ['>'] := by simp
    rw [if_neg hlang, hcloses, hclose, hend]
    simp only [← List.append_assoc]
    rw [hopens]
    simp only [List.append_assoc, List.cons_append] at hcode ⊢
    exact hcode

def BlockLeaf.shown : BlockLeaf → List Text
  | fence _ content | codeBlock content => [rstripNewlines content]
  | hr => []

theorem BlockLeaf.formed (leaf : BlockLeaf) (env : Env) :
    ∃ html, rule env leaf.token = some (html, env) ∧ Formed nested html leaf.shown := by
  cases leaf with
  | fence info content => exact ⟨_, rfl, formed_fence info content⟩
  | codeBlock content => exact ⟨_, rfl, formed_codeBlock content⟩
  | hr =>
      exact ⟨_, rfl, Plain.formed (by decide)⟩

/-- All that is to be seen of blocks, code without the newlines at its end. -/
def Forest.shown : {level : Level} → Forest nested level → List Text
  | _, nil => []
  | _, paragraph line rest | _, heading line rest => line.shown ++ rest.shown
  | _, leaf inner rest => inner.shown ++ rest.shown
  | _, quote body rest | _, item body rest => body.shown ++ rest.shown
  | _, list _ items rest => items.shown ++ rest.shown

/-! ### The markers -/

/-- The marker of an item of a list that so many lists enclose, by its place in the list. -/
def ListKind.marker (first : Nat → Nat) (lists : Nat) : ListKind → Nat → Text
  | bullet, _ => List.replicate (2 * lists) ' ' ++ "• ".toList
  | ordered start, place =>
      List.replicate (2 * lists) ' ' ++ (toString (first start + place)).toList ++ ". ".toList

/-- The markers of the items, where a list with this start has that number first: of blocks that so
many lists enclose, or of the items of a list from some place on. -/
def Forest.markers (first : Nat → Nat) :
    {level : Level} → Forest nested level → (lists : Nat) → (kind : ListKind) → (place : Nat) → List Text
  | _, nil, _, _, _ => []
  | _, paragraph _ rest, lists, kind, place | _, heading _ rest, lists, kind, place
  | _, leaf _ rest, lists, kind, place => rest.markers first lists kind place
  | _, quote body rest, lists, kind, place =>
      body.markers first lists kind place ++ rest.markers first lists kind place
  | _, list inner items rest, lists, kind, place =>
      items.markers first lists inner 0 ++ rest.markers first lists kind place
  | _, item body rest, lists, kind, place =>
      kind.marker first lists place :: (body.markers first (lists + 1) kind place ++
        rest.markers first lists kind (place + 1))

/-- What the items were rendered with. -/
def renderedMarkers (rendered : List (Token × Text)) : List Text :=
  rendered.filterMap fun entry =>
    match entry.1 with
    | .listItemOpen => some entry.2
    | _ => none

/-- The number that the first item of a list gets. -/
def firstNumber (start : Nat) : Nat := if start = 0 then 1 else start

/-- The entry of a list when so many of its items have been opened. -/
def ListKind.entry : ListKind → Nat → ListEntry
  | bullet, _ => ⟨.ul, 0⟩
  | ordered start, place => ⟨.ol, firstNumber start + place⟩

/-- The stack among blocks, or among the items of a list. -/
def Level.stack (kind : ListKind) (place : Nat) (below : List ListEntry) : Level → List ListEntry
  | blocks => below
  | items => kind.entry place :: below

/-- The items in the row itself. -/
def Forest.count : {level : Level} → Forest nested level → Nat
  | _, item _ rest => rest.count + 1
  | _, nil | _, paragraph .. | _, heading .. | _, leaf .. | _, quote .. | _, list .. => 0

/-! ### Every row -/

variable {env later : Env} {token : Token} {tokens more : List Token}
  {rendered renderedMore : List (Token × Text)}

theorem renderEach_cons {next : Env} (hrule : rule env token = some (html, next))
    (h : renderEach next tokens = some (rendered, later)) :
    renderEach env (token :: tokens) = some ((token, html) :: rendered, later) := by
  simp [renderEach, hrule, h]

theorem renderEach_append {next : Env} (h : renderEach env tokens = some (rendered, next))
    (hmore : renderEach next more = some (renderedMore, later)) :
    renderEach env (tokens ++ more) = some (rendered ++ renderedMore, later) := by
  induction tokens generalizing env rendered with
  | nil =>
      cases h
      exact hmore
  | cons token tokens ih =>
      obtain ⟨first, hrule, hrest⟩ := Option.bind_eq_some_iff.mp h
      obtain ⟨last, hlast, heq⟩ := Option.map_eq_some_iff.mp hrest
      cases heq
      exact renderEach_cons hrule (ih hlast)

/-- The output of a row. -/
def output (rendered : List (Token × Text)) : Text := (rendered.map Prod.snd).flatten

theorem output_append : output (rendered ++ renderedMore) =
    output rendered ++ output renderedMore := by
  simp [output]

theorem output_cons (entry : Token × Text) :
    output (entry :: rendered) = entry.2 ++ output rendered := rfl

theorem renderedMarkers_append : renderedMarkers (rendered ++ renderedMore) =
    renderedMarkers rendered ++ renderedMarkers renderedMore :=
  List.filterMap_append

/-- What a row is rendered as, and the state it leaves. -/
structure Rendering (nested : Bool) (env : Env) (tokens : List Token) (rendered : List (Token × Text))
    (later : Env) (stack : List ListEntry) (shown marked : List Text) : Prop where
  run : renderEach env tokens = some (rendered, later)
  skip : later.skipLinkClose = 0
  depth : env.bqDepth.isSome → later.bqDepth.isSome
  stack : later.listStack = stack
  formed : Formed nested (output rendered) shown
  marked : renderedMarkers rendered = marked

theorem plain_replicate {c : Char} (h : c ≠ '<' ∧ c ≠ '>' ∧ c ≠ '&') (count : Nat) :
    Plain (List.replicate count c) := by
  intro d hd
  rw [List.eq_of_mem_replicate hd]
  exact h

theorem Plain.append (h : Plain html) (hother : Plain other) : Plain (html ++ other) := by
  intro c hmem
  rcases List.mem_append.mp hmem with hleft | hright
  · exact h c hleft
  · exact hother c hright

theorem plain_number (number : Nat) : Plain (toString number).toList := by
  intro c hc
  have hdigit : c.isDigit = true := by
    refine Nat.isDigit_of_mem_toDigits (b := 10) (n := number) (by decide) (by decide) ?_
    simpa using hc
  refine ⟨?_, ?_, ?_⟩ <;>
    · rintro rfl
      exact absurd hdigit (by decide)

theorem ListKind.plain_marker (first : Nat → Nat) (lists : Nat) (kind : ListKind) (place : Nat) :
    Plain (kind.marker first lists place) := by
  have hspaces : Plain (List.replicate (2 * lists) ' ') := plain_replicate (by decide) _
  have hbullet : Plain "• ".toList := by decide
  have hdot : Plain ". ".toList := by decide
  cases kind with
  | bullet => exact hspaces.append hbullet
  | ordered start => exact (hspaces.append (plain_number _)).append hdot

theorem listItemOpen_eq {kind : ListKind} {place : Nat} {below : List ListEntry}
    (h : env.listStack = kind.entry place :: below) :
    ∃ next, listItemOpen env = some (kind.marker firstNumber below.length place, next) ∧
      next.listStack = kind.entry (place + 1) :: below ∧ next.skipLinkClose = env.skipLinkClose ∧
      next.bqDepth = env.bqDepth := by
  unfold listItemOpen
  cases kind with
  | bullet => exact ⟨env, by simp [h, ListKind.entry, ListKind.marker], h, rfl, rfl⟩
  | ordered start =>
      refine ⟨{ env with listStack := (ListKind.ordered start).entry (place + 1) :: below }, ?_, rfl,
        rfl, rfl⟩
      simp only [h, ListKind.entry, ListKind.marker]
      rfl

theorem ListKind.opened (kind : ListKind) (env : Env) :
    rule env kind.opens =
      some ([], { env with listStack := kind.entry 0 :: env.listStack }) := by
  cases kind with
  | bullet => rfl
  | ordered start =>
      by_cases hone : start = 1
      · simp [opens, rule, openList, hone, startOf, entry, firstNumber]
      · simp [opens, rule, openList, hone, startOf, entry, firstNumber]

theorem ListKind.closed (kind : ListKind) {entry : ListEntry} {below : List ListEntry}
    (h : env.listStack = entry :: below) :
    rule env kind.closes = some (if below.isEmpty then "\n".toList else [],
      { env with listStack := below }) := by
  cases kind <;> simp [closes, rule, closeList, h]

theorem plain_paragraphClose (env : Env) : Plain (paragraphClose env) := by
  unfold paragraphClose
  split
  · decide
  · exact plain_newline

theorem plain_listClose (below : List ListEntry) :
    Plain (if below.isEmpty then "\n".toList else []) := by
  split
  · exact plain_newline
  · exact fun c hc => by cases hc

/-- Around blocks: a heading, a quote. -/
theorem formed_around {code after : Text} (h : Formed nested code contents) {name : Text}
    {element : Element} (hname : (name, element) ∈ bareTags) (hafter : Formed nested after others) :
    Formed nested (opensTag name ++ (code ++ (closesTag name ++ "\n\n".toList ++ after)))
      (contents ++ others) := by
  have hend : Plain "\n\n".toList := by decide
  have hall := ((h.bareElement hname).append hend.formed).append hafter
  rw [List.append_nil] at hall
  simp only [List.append_assoc] at hall ⊢
  exact hall

/-- Every row is rendered as HTML that is balanced by itself, and leaves the stack as it was but for
the number of the next item. -/
theorem Forest.rendering {level : Level} (forest : Forest nested level) (env : Env) (kind : ListKind)
    (place : Nat) (below : List ListEntry) (hskip : env.skipLinkClose = 0)
    (hstack : env.listStack = level.stack kind place below) :
    ∃ rendered later, Rendering nested env forest.tokens rendered later
      (level.stack kind (place + forest.count) below) forest.shown
      (forest.markers firstNumber below.length kind place) := by
  induction forest generalizing env kind place below with
  | nil => exact ⟨[], env, rfl, hskip, id, hstack, formed_nil, rfl⟩
  | paragraph line rest ih =>
      obtain ⟨html, hline, hformed⟩ := line.rendering hskip
      obtain ⟨rendered, later, h⟩ := ih env kind place below hskip hstack
      have hinline : rule env (.inline line.tokens) = some (html, env) := congrArg some hline
      refine ⟨_, later, renderEach_cons rfl (renderEach_cons hinline (renderEach_cons rfl h.run)),
        h.skip, h.depth, h.stack, ?_, h.marked⟩
      simp only [output_cons, List.nil_append]
      exact hformed.append ((plain_paragraphClose env).formed.append h.formed)
  | heading line rest ih =>
      obtain ⟨html, hline, hformed⟩ := line.rendering hskip
      obtain ⟨rendered, later, h⟩ := ih env kind place below hskip hstack
      have hinline : rule env (.inline line.tokens) = some (html, env) := congrArg some hline
      refine ⟨_, later, renderEach_cons rfl (renderEach_cons hinline (renderEach_cons rfl h.run)),
        h.skip, h.depth, h.stack, ?_, h.marked⟩
      have hname : ("b".toList, Element.b) ∈ bareTags := by decide
      exact formed_around hformed hname h.formed
  | leaf inner rest ih =>
      obtain ⟨html, hrule, hformed⟩ := inner.formed env
      obtain ⟨rendered, later, h⟩ := ih env kind place below hskip hstack
      have hmarked : renderedMarkers ((inner.token, html) :: rendered) = renderedMarkers rendered := by
        cases inner <;> rfl
      exact ⟨_, later, renderEach_cons hrule h.run, h.skip, h.depth, h.stack,
        hformed.append h.formed, hmarked.trans h.marked⟩
  | quote body rest ihbody ihrest =>
      obtain ⟨inner, between, hbody⟩ := ihbody
        { env with bqDepth := some (env.bqDepth.getD 0 + 1) } kind place below hskip hstack
      obtain ⟨depth, hdepth⟩ := Option.isSome_iff_exists.mp (hbody.depth rfl)
      obtain ⟨rendered, later, h⟩ := ihrest { between with bqDepth := some (depth - 1) } kind place
        below hbody.skip hbody.stack
      have hclose : rule between .blockquoteClose = some ("</blockquote>\n\n".toList,
          { between with bqDepth := some (depth - 1) }) := by
        simp [rule, hdepth]
      refine ⟨_, later, renderEach_cons rfl (renderEach_append hbody.run
        (renderEach_cons hclose h.run)), h.skip, fun _ => h.depth rfl, h.stack, ?_, ?_⟩
      · have hname : ("blockquote".toList, Element.blockquote) ∈ bareTags := by decide
        simp only [output_cons, output_append]
        exact formed_around hbody.formed hname h.formed
      · exact renderedMarkers_append.trans (congrArg₂ _ hbody.marked h.marked)
  | list inner items rest ihitems ihrest =>
      obtain ⟨first, between, hitems⟩ := ihitems
        { env with listStack := inner.entry 0 :: env.listStack } inner 0 below hskip
        (congrArg _ hstack)
      obtain ⟨rendered, later, h⟩ := ihrest { between with listStack := below } kind place below
        hitems.skip rfl
      have hclose := inner.closed hitems.stack
      refine ⟨_, later, renderEach_cons (inner.opened env) (renderEach_append hitems.run
        (renderEach_cons hclose h.run)), h.skip, fun hdepth => h.depth (hitems.depth hdepth), h.stack,
        ?_, ?_⟩
      · simp only [output_cons, output_append, List.nil_append]
        exact hitems.formed.append ((plain_listClose below).formed.append h.formed)
      · have hopens : renderedMarkers ((inner.opens, []) :: (first ++ (inner.closes,
            if below.isEmpty then "\n".toList else []) :: rendered)) =
              renderedMarkers first ++ renderedMarkers rendered := by
          cases inner <;> simp [renderedMarkers, ListKind.opens, ListKind.closes]
        exact hopens.trans (congrArg₂ _ hitems.marked h.marked)
  | item body rest ihbody ihrest =>
      obtain ⟨next, hitem, hnext, hskipped, hquoted⟩ := listItemOpen_eq hstack
      obtain ⟨inner, between, hbody⟩ := ihbody next kind place (kind.entry (place + 1) :: below)
        (hskipped.trans hskip) hnext
      obtain ⟨rendered, later, h⟩ := ihrest between kind (place + 1) below hbody.skip hbody.stack
      refine ⟨_, later, renderEach_cons hitem (renderEach_append hbody.run
        (renderEach_cons rfl h.run)), h.skip, fun hdepth => h.depth (hbody.depth (hquoted ▸ hdepth)),
        ?_, ?_, ?_⟩
      · rw [h.stack, Forest.count, Nat.add_right_comm, Nat.add_assoc]
      · simp only [output_cons, output_append, List.nil_append]
        exact (kind.plain_marker _ _ _).formed.append (hbody.formed.append h.formed)
      · have hmark : renderedMarkers ((.listItemOpen, kind.marker firstNumber below.length place) ::
            (inner ++ (.listItemClose, []) :: rendered)) =
              kind.marker firstNumber below.length place ::
                (renderedMarkers inner ++ renderedMarkers rendered) := by
          simp [renderedMarkers]
        rw [hmark, hbody.marked, h.marked]
        rfl

/-- **Rendered HTML is well formed**, whatever the parser yields without links in links. -/
theorem rendered_well_formed (blocks : Forest false .blocks) :
    ∃ html later pieces text, render {} blocks.tokens = some (html, later) ∧
      Reads html pieces ∧ nest tags [] pieces = some [] ∧
      (∀ inside, .tag inside ∈ pieces → tags.opening inside = some .a → Linked inside) ∧
      Shows character pieces text ∧ InOrder blocks.shown text := by
  obtain ⟨rendered, later, h⟩ := blocks.rendering {} .bullet 0 [] rfl rfl
  obtain ⟨pieces, text, hreads, hnest, hlinked, hshows, horder⟩ := h.formed.pieces
  exact ⟨output rendered, later, pieces, text, by simp [render, h.run, output], hreads,
    hnest rfl [], hlinked, hshows, horder⟩

/-! ### Numbers -/

/-- No ordered list with an item starts at zero. -/
def Forest.NoneFromZero : {level : Level} → Forest nested level → Prop
  | _, nil => True
  | _, paragraph _ rest | _, heading _ rest | _, leaf _ rest => rest.NoneFromZero
  | _, quote body rest | _, item body rest => body.NoneFromZero ∧ rest.NoneFromZero
  | _, list kind items rest =>
      (kind = .ordered 0 → items.count = 0) ∧ items.NoneFromZero ∧ rest.NoneFromZero

theorem getLast?_number (number : Nat) :
    (toString number).toList.getLast? = some (Nat.digitChar (number % 10)) := by
  have hdigits : (toString number).toList = Nat.toDigits 10 number := by simp
  rw [hdigits, Nat.toDigits_eq_if (by decide)]
  split
  · next hlt => simp [Nat.mod_eq_of_lt hlt]
  · simp

/-- A number and the next one are written in different ways. -/
theorem number_succ_ne (number : Nat) :
    (toString (number + 1)).toList ≠ (toString number).toList := by
  intro h
  have hlast := congrArg List.getLast? h
  rw [getLast?_number, getLast?_number, Option.some.injEq] at hlast
  have hdigits : ∀ a < 10, ∀ b < 10, Nat.digitChar a = Nat.digitChar b → a = b := by decide
  have hsame := hdigits _ (Nat.mod_lt _ (by decide)) _ (Nat.mod_lt _ (by decide)) hlast
  omega

theorem marker_eq_iff (lists : Nat) (kind : ListKind) (place : Nat) :
    kind.marker firstNumber lists place = kind.marker id lists place ↔ kind ≠ .ordered 0 := by
  cases kind with
  | bullet => simp [ListKind.marker]
  | ordered start =>
      by_cases hzero : start = 0
      · subst hzero
        have hne := number_succ_ne place
        simp only [ListKind.marker, firstNumber, if_true, id_eq, List.append_cancel_right_eq,
          List.append_cancel_left_eq, ne_eq, not_true_eq_false, iff_false, Nat.add_comm 1,
          Nat.zero_add]
        exact hne
      · simp [ListKind.marker, firstNumber, hzero]

theorem Forest.length_markers (first second : Nat → Nat) {level : Level} (forest : Forest nested level)
    (lists : Nat) (kind : ListKind) (place : Nat) :
    (forest.markers first lists kind place).length =
      (forest.markers second lists kind place).length := by
  induction forest generalizing lists kind place with
  | nil => rfl
  | paragraph line rest ih | heading line rest ih | leaf inner rest ih => exact ih lists kind place
  | quote body rest ihbody ihrest | list inner body rest ihbody ihrest =>
      simp only [markers, List.length_append]
      rw [ihbody, ihrest]
  | item body rest ihbody ihrest =>
      simp only [markers, List.length_cons, List.length_append]
      rw [ihbody, ihrest]

theorem Forest.count_blocks (blocks : Forest nested .blocks) : blocks.count = 0 := by
  cases blocks <;> rfl

theorem Forest.markers_eq_iff {level : Level} (forest : Forest nested level) (lists : Nat)
    (kind : ListKind) (place : Nat) :
    forest.markers firstNumber lists kind place = forest.markers id lists kind place ↔
      (kind = .ordered 0 → forest.count = 0) ∧ forest.NoneFromZero := by
  have happend {left right left' right' : List Text} (h : left.length = left'.length) :
      left ++ right = left' ++ right' ↔ left = left' ∧ right = right' :=
    ⟨fun heq => List.append_inj heq h, fun heq => congrArg₂ _ heq.1 heq.2⟩
  induction forest generalizing lists kind place with
  | nil => simp [markers, count, NoneFromZero]
  | paragraph line rest ih | heading line rest ih | leaf inner rest ih =>
      simpa [count_blocks, count, markers, NoneFromZero] using ih lists kind place
  | quote body rest ihbody ihrest =>
      simp only [markers, happend (length_markers firstNumber id body _ _ _), ihbody, ihrest,
        count_blocks, implies_true, true_and, NoneFromZero]
  | list inner items rest ihitems ihrest =>
      simp only [markers, happend (length_markers firstNumber id items _ _ _), ihitems, ihrest,
        count_blocks, implies_true, true_and, NoneFromZero, and_assoc]
  | item body rest ihbody ihrest =>
      simp only [markers, List.cons.injEq, happend (length_markers firstNumber id body _ _ _),
        marker_eq_iff, ihbody, ihrest, count_blocks, implies_true, true_and, NoneFromZero, count,
        Nat.add_one_ne_zero, imp_false, ne_eq]
      constructor
      · rintro ⟨hkind, hbody, -, hrest⟩
        exact ⟨hkind, hbody, hrest⟩
      · rintro ⟨hkind, hbody, hrest⟩
        exact ⟨hkind, hbody, fun hzero => absurd hzero hkind, hrest⟩

/-- **The items keep their numbers**, and the stack is empty after the lists, just if no ordered list
with an item starts at zero: zero is no start to `or`. -/
theorem items_keep_numbers (blocks : Forest nested .blocks) :
    (∃ rendered later, renderEach {} blocks.tokens = some (rendered, later) ∧
        renderedMarkers rendered = blocks.markers id 0 .bullet 0 ∧ later.listStack = []) ↔
      blocks.NoneFromZero := by
  obtain ⟨rendered, later, h⟩ := blocks.rendering {} .bullet 0 [] rfl rfl
  have hiff : renderedMarkers rendered = blocks.markers id 0 .bullet 0 ↔ blocks.NoneFromZero := by
    rw [h.marked]
    simpa [Forest.count_blocks] using blocks.markers_eq_iff 0 .bullet 0
  rw [← hiff]
  constructor
  · rintro ⟨again, last, hrun, hmarked, -⟩
    cases h.run.symm.trans hrun
    exact hmarked
  · intro hmarked
    exact ⟨rendered, later, h.run, hmarked, h.stack⟩

/-- An ordered list that starts at zero, of one item. -/
def zeroList : Forest true .blocks :=
  .list (.ordered 0) (.item (.paragraph (.leaf (.text "a".toList) .nil) .nil) .nil) .nil

theorem zero_list_from_one :
    (renderEach {} zeroList.tokens).map (fun result => renderedMarkers result.1) =
        some ["1. ".toList] ∧
      zeroList.markers id 0 .bullet 0 = ["0. ".toList] := by
  decide +kernel

end CodexServer.Markdown
