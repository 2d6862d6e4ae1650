import CodexServer.Proof.ValidChunks

/-!
# What the messages show

The messages show what the whole does, but for the space at their ends, just if every cut of it is in
no tag and in no entity. The tags that a cut by force puts around it show nothing.
-/

open Markup

namespace CodexServer.Markdown

variable {text other shown seen html : Text} {limit start place : Nat} {reopened forced nested : Bool}

/-! ### Space at the ends -/

theorem Space.append (h : Space text) (hother : Space other) : Space (text ++ other) := by
  intro c hmem
  rcases List.mem_append.mp hmem with hleft | hright
  · exact h c hleft
  · exact hother c hright

theorem space_nil : Space [] := by simp [Space]

theorem lstrip_append_of_space (h : Space text) : lstrip (text ++ other) = lstrip other :=
  List.dropWhile_append_of_pos h

theorem rstrip_append_of_space (h : Space other) : rstrip (text ++ other) = rstrip text := by
  have hreverse : ∀ c ∈ other.reverse, isPythonSpace c = true := fun c hc =>
    h c (List.mem_reverse.mp hc)
  unfold rstrip List.rdropWhile
  rw [List.reverse_append, List.dropWhile_append_of_pos hreverse]

theorem lstrip_of_solid (h : Solid text) : lstrip text = text := by
  cases text with
  | nil => rfl
  | cons c text => exact List.dropWhile_cons_of_neg (by simp [h c rfl])

theorem lstrip_of_space (h : Space text) : lstrip text = [] :=
  List.dropWhile_eq_nil_iff.mpr h

/-- A text is what is left of it stripped, between two spaces. -/
theorem strip_split (text : Text) : ∃ before after, Space before ∧ Space after ∧
    text = before ++ strip text ++ after := by
  obtain ⟨before, hbefore, hleft⟩ := lstrip_split text
  obtain ⟨after, hafter, hright⟩ := rstrip_split (lstrip text)
  refine ⟨before, after, hbefore, hafter, ?_⟩
  rw [List.append_assoc, strip, ← hright]
  exact hleft

theorem strip_append_space {before after : Text} (hbefore : Space before) (hafter : Space after) :
    strip (before ++ text ++ after) = strip text := by
  unfold strip
  rw [List.append_assoc, lstrip_append_of_space hbefore]
  by_cases hspace : Space text
  · rw [lstrip_of_space hspace, lstrip_of_space (hspace.append hafter)]
  · have hne : (text.dropWhile isPythonSpace).isEmpty = false :=
      List.isEmpty_eq_false_iff.mpr fun hnil => hspace (List.dropWhile_eq_nil_iff.mp hnil)
    have hleft : lstrip (text ++ after) = lstrip text ++ after := by
      unfold lstrip
      rw [List.dropWhile_append, hne, if_neg Bool.false_ne_true]
    rw [hleft, rstrip_append_of_space hafter]

theorem strip_strip (text : Text) : strip (strip text) = strip text := by
  obtain ⟨before, after, hbefore, hafter, htext⟩ := strip_split text
  have hstrip := congrArg strip htext
  rw [strip_append_space hbefore hafter] at hstrip
  exact hstrip.symm

theorem strip_eq_nil_iff : strip text = [] ↔ Space text := by
  constructor
  · intro hnil
    obtain ⟨before, after, hbefore, hafter, htext⟩ := strip_split text
    rw [htext, hnil, List.append_nil]
    exact hbefore.append hafter
  · intro hspace
    have hstrip : strip (text ++ [] ++ []) = strip [] := strip_append_space hspace space_nil
    rwa [List.append_nil, List.append_nil] at hstrip

/-- Nothing but space comes after a text if the whole is the same stripped. -/
theorem space_of_strip_append (h : strip (text ++ other) = strip text) : Space other := by
  by_cases hspace : Space text
  · rw [strip_eq_nil_iff.mpr hspace, strip_eq_nil_iff] at h
    exact fun c hc => h c (List.mem_append_right _ hc)
  · obtain ⟨before, after, hbefore, hafter, htext⟩ := strip_split text
    obtain ⟨before', after', hbefore', hafter', hwhole⟩ := strip_split (text ++ other)
    have hsolid (last : Text) : lstrip (strip text ++ last) = strip text ++ last := by
      refine lstrip_of_solid fun c hc => ?_
      obtain ⟨d, more, hd⟩ := List.exists_cons_of_ne_nil (mt strip_eq_nil_iff.mp hspace)
      rw [hd, List.cons_append, List.head?_cons] at hc
      exact solid_strip text c (by rw [hd, ← hc, List.head?_cons])
    have hleft := congrArg lstrip hwhole
    rw [h, List.append_assoc, lstrip_append_of_space hbefore', hsolid] at hleft
    have hright : lstrip (text ++ other) = strip text ++ (after ++ other) := by
      conv_lhs => rw [htext]
      rw [List.append_assoc, List.append_assoc, lstrip_append_of_space hbefore, hsolid]
    have hlast := List.append_cancel_left (hright.symm.trans hleft)
    exact fun c hc => hafter' c (hlast ▸ List.mem_append_right _ hc)

/-- The texts stand one after the other, but for the space at their ends. -/
inductive Joined : Text → List Text → Prop
  | nil {space : Text} : Space space → Joined space []
  | cons {space rest : Text} (text : Text) {texts : List Text} : Space space → Joined rest texts →
      Joined (space ++ strip text ++ rest) (text :: texts)

theorem Joined.space_append {texts : List Text} (hspace : Space other) (h : Joined text texts) :
    Joined (other ++ text) texts := by
  cases h with
  | nil hrest => exact .nil (hspace.append hrest)
  | cons first hfirst hrest =>
      have hcons := Joined.cons first (hspace.append hfirst) hrest
      simpa only [List.append_assoc] using hcons

theorem Joined.append {texts : List Text} (text : Text) (hspace : Space other)
    (h : Joined seen texts) : Joined (text ++ other ++ seen) (text :: texts) := by
  obtain ⟨before, after, hbefore, hafter, htext⟩ := strip_split text
  have hcons := Joined.cons text hbefore ((h.space_append hspace).space_append hafter)
  rw [← List.append_assoc, ← htext, ← List.append_assoc] at hcons
  exact hcons

theorem joined_singleton_iff : Joined seen [shown] ↔ strip seen = strip shown := by
  constructor
  · rintro (_ | ⟨-, hbefore, ⟨hafter⟩⟩)
    exact (strip_append_space hbefore hafter).trans (strip_strip shown)
  · intro h
    obtain ⟨before, after, hbefore, hafter, hseen⟩ := strip_split seen
    rw [hseen, h]
    exact .cons shown hbefore (.nil hafter)

/-! ### One message -/

theorem displays_tagsBefore (reopened : Bool) : Displays (tagsBefore reopened) [] := by
  obtain ⟨pieces, shown, hreads, hshows, -⟩ := leads_tagsBefore reopened
  cases reopened with
  | false => exact ⟨[], .nil, rfl⟩
  | true => exact ⟨[.tag "pre".toList, .tag "code".toList], by unfold Reads; decide, rfl⟩

theorem displays_tagsAfter : Displays (text ++ tagsAfter forced) shown ↔ Displays text shown := by
  cases forced with
  | false => simp [tagsAfter]
  | true =>
      change Displays (text ++ codeClose) shown ↔ _
      have hclose : Displays codeClose [] := ⟨_, reads_codeClose, rfl⟩
      constructor
      · rintro ⟨pieces, hreads, hshows⟩
        have hcons : codeClose = '<' :: codeClose.tail := by decide
        obtain ⟨first, hfirst⟩ := Reads.of_append_open (hcons ▸ hreads)
        obtain ⟨more, hmore, rfl⟩ := hreads.split hfirst
        cases hmore.unique reads_codeClose
        obtain ⟨before, hbefore⟩ := Shows.of_append_tag hshows
        have htext : Displays text before := ⟨first, hfirst, hbefore⟩
        have hwhole := htext.append hclose
        rw [List.append_nil] at hwhole
        rwa [hwhole.unique ⟨_, hreads, hshows⟩] at htext
      · intro h
        have hwhole := h.append hclose
        rwa [List.append_nil] at hwhole

/-- What is shown of a text around a place of it. -/
structure ShownAt (html : Text) (start : Nat) (content : Text) : Prop where
  before : ∃ seen, Displays (html.take start) seen
  after : Displays (html.drop start) content

variable {content : Text}

/-- What a message shows that ends where the text is in no tag and in no entity. -/
theorem ShownAt.cut (h : ShownAt html start content) (hroom : 24 < limit)
    (hends : EndsAt limit html start reopened place forced)
    (hclear : ∃ seen, Displays (html.take place) seen) :
    ∃ head gap next, Displays (cutOff limit (restFrom html start reopened)).1 head ∧
      ShownAt html (afterSpace html place) next ∧ Space gap ∧ content = head ++ gap ++ next := by
  obtain ⟨hlt, -, hmessage, -⟩ := hends.spec hroom
  obtain ⟨before, hbefore⟩ := h.before
  obtain ⟨seen, hseen⟩ := hclear
  have hsplit := hseen
  have hafter := h.after
  rw [take_eq_append hlt.le] at hsplit
  rw [drop_eq_append hlt.le] at hafter
  obtain ⟨middle, hmiddle, -⟩ := hsplit.split hbefore
  obtain ⟨last, hlast, rfl⟩ := hafter.split hmiddle
  obtain ⟨head, hhead, htaken⟩ := ((displays_tagsBefore reopened).append hmiddle).rstrip
  obtain ⟨next, hnext, rfl⟩ := hlast.lstrip
  rw [List.nil_append] at htaken
  refine ⟨head, trailing (tagsBefore reopened ++ (html.drop start).take (place - start)) ++
    leading (html.drop place), next, ?_, ⟨⟨seen ++ leading (html.drop place), ?_⟩, ?_⟩,
    (space_trailing _).append (space_leading _), ?_⟩
  · rw [hmessage]
    exact displays_tagsAfter.mpr hhead
  · rw [take_afterSpace]
    exact hseen.append (displays_space (space_leading _))
  · rw [drop_afterSpace]
    exact hnext
  · rw [htaken]
    simp only [List.append_assoc]

/-- A message shows a text just if it ends where the whole is in no tag and in no entity. -/
theorem ShownAt.message_iff (h : ShownAt html start content) (hroom : 24 < limit)
    (hends : EndsAt limit html start reopened place forced) :
    (∃ shown, Displays (cutOff limit (restFrom html start reopened)).1 shown) ↔
      ∃ seen, Displays (html.take place) seen := by
  constructor
  · rintro ⟨shown, hshown⟩
    obtain ⟨hlt, -, hmessage, -⟩ := hends.spec hroom
    obtain ⟨before, hbefore⟩ := h.before
    rw [hmessage] at hshown
    have hall := (displays_tagsAfter.mp hshown).append (displays_space (space_trailing
      (tagsBefore reopened ++ (html.drop start).take (place - start))))
    rw [rstrip_append_trailing] at hall
    obtain ⟨middle, hmiddle, -⟩ := hall.split (displays_tagsBefore reopened)
    rw [take_eq_append hlt.le]
    exact ⟨_, hbefore.append hmiddle⟩
  · intro hclear
    obtain ⟨head, -, -, hhead, -⟩ := h.cut hroom hends hclear
    exact ⟨head, hhead⟩

/-! ### All messages -/

/-- Every cut of the text is in no tag and in no entity. -/
def CutsApart (html : Text) : Prop :=
  ∀ place forced, IsCut messageLimit html place forced → ∃ seen, Displays (html.take place) seen

/-- The messages show the text together. -/
def ShowsAll (html : Text) (messages : List Text) : Prop :=
  ∃ whole shown, Displays html whole ∧ List.Forall₂ Displays messages shown ∧ Joined whole shown

/-- **The messages show the whole** just if every cut is in no tag and in no entity. -/
theorem messages_show_all (hdisplays : Displays html shown) {chunks : List Text}
    (hchunks : splitChunks html messageLimit = some chunks) :
    ShowsAll html chunks ↔ CutsApart html := by
  have hroom : 24 < messageLimit := by decide
  have hsplit : splitFrom messageLimit (html.length + 1) (restFrom html 0 false) = some chunks :=
    hchunks
  have hnil : Displays [] [] := ⟨[], .nil, rfl⟩
  have hstart : ShownAt html 0 shown := ⟨⟨[], hnil⟩, hdisplays⟩
  have hrest {start : Nat} (reopened : Bool) {content : Text} (h : ShownAt html start content) :
      Displays (restFrom html start reopened) content :=
    (displays_tagsBefore reopened).append h.after
  constructor
  · rintro ⟨whole, texts, -, htexts, -⟩
    have hboth : List.Forall₂ (fun chunk text => (∃ shown, Displays chunk shown) ∧
        Displays chunk text) chunks texts :=
      htexts.imp fun chunk text h => ⟨⟨text, h⟩, h⟩
    refine (splitFrom_iff hroom (fun chunk => ∃ shown, Displays chunk shown)
      (fun start _ => ∃ content, ShownAt html start content)
      (fun place _ => ∃ seen, Displays (html.take place) seen) ?_ ?_ hsplit ⟨shown, hstart⟩).mp
      ((List.forall₂_and_left _ _).mp hboth).1
    · rintro start reopened ⟨content, h⟩ - -
      exact ⟨content, hrest reopened h⟩
    · rintro start reopened place forced ⟨content, h⟩ hends
      refine ⟨h.message_iff hroom hends, fun hclear => ?_⟩
      obtain ⟨-, -, next, -, hnext, -⟩ := h.cut hroom hends hclear
      exact ⟨next, hnext⟩
  · intro hclear
    suffices htexts : ∃ texts, List.Forall₂ Displays chunks texts ∧ Joined shown texts by
      obtain ⟨texts, htexts, hjoined⟩ := htexts
      exact ⟨shown, texts, hdisplays, htexts, hjoined⟩
    refine splitFrom_contents hroom Displays Joined
      (fun start _ content => ShownAt html start content)
      (fun place _ => ∃ seen, Displays (html.take place) seen) ?_ ?_ ?_ hsplit hstart hclear
    · intro start reopened content h hempty
      have hshown := hrest reopened h
      rw [hempty] at hshown
      rw [hshown.unique hnil]
      exact .nil space_nil
    · intro start reopened content h
      exact ⟨hrest reopened h, joined_singleton_iff.mpr rfl⟩
    · intro start reopened place forced content h hends hapart
      obtain ⟨head, gap, next, hhead, hnext, hgap, rfl⟩ := h.cut hroom hends hapart
      exact ⟨head, next, hhead, hnext, fun hjoined => .append head hgap hjoined⟩

/-- If the text is cut, its first message ends in no tag and in no entity, and nothing but space is
shown after it. -/
def FirstIsAll (html : Text) : Prop :=
  ∀ place forced, EndsAt messageLimit html 0 false place forced →
    (∃ seen, Displays (html.take place) seen) ∧ ∃ space, Displays (html.drop place) space ∧ Space space

/-- **The first message shows the whole** just if nothing is shown after it. -/
theorem first_shows_all (hdisplays : Displays html shown) {first : Text} {more : List Text}
    (hchunks : splitChunks html messageLimit = some (first :: more)) :
    ShowsAll html [first] ↔ FirstIsAll html := by
  have hroom : 24 < messageLimit := by decide
  have hshows : ShowsAll html [first] ↔ ∃ seen, Displays first seen ∧ strip shown = strip seen := by
    constructor
    · rintro ⟨whole, texts, hwhole, htexts, hjoined⟩
      obtain ⟨seen, texts, hseen, hnil, rfl⟩ := List.forall₂_cons_left_iff.mp htexts
      cases hnil
      exact ⟨seen, hseen, hdisplays.unique hwhole ▸ joined_singleton_iff.mp hjoined⟩
    · rintro ⟨seen, hseen, hstrip⟩
      exact ⟨shown, [seen], hdisplays, .cons hseen .nil, joined_singleton_iff.mpr hstrip⟩
  rw [hshows]
  have hsplit : splitFrom messageLimit (html.length + 1) (restFrom html 0 false) =
      some (first :: more) := hchunks
  unfold splitFrom at hsplit
  by_cases hlong : messageLimit < (restFrom html 0 false).length
  · rw [if_pos hlong] at hsplit
    obtain ⟨later, -, heq⟩ := Option.map_eq_some_iff.mp hsplit
    obtain ⟨rfl, rfl⟩ := List.cons.inj heq
    obtain ⟨place, forced, hends⟩ := exists_endsAt hroom hlong
    have hstart : ShownAt html 0 shown := ⟨⟨[], [], .nil, rfl⟩, hdisplays⟩
    constructor
    · rintro ⟨seen, hseen, hstrip⟩ place' forced' hends'
      obtain ⟨rfl, rfl⟩ := hends.unique hends'
      have hclear := (hstart.message_iff hroom hends).mp ⟨seen, hseen⟩
      obtain ⟨head, gap, next, hhead, hnext, -, rfl⟩ := hstart.cut hroom hends hclear
      rw [hseen.unique hhead, List.append_assoc] at hstrip
      have hspace := space_of_strip_append hstrip
      have hlater : Displays (leading (html.drop place) ++ lstrip (html.drop place))
          (leading (html.drop place) ++ next) :=
        (displays_space (space_leading _)).append (drop_afterSpace html place ▸ hnext.after)
      rw [leading_append_lstrip] at hlater
      exact ⟨hclear, _, hlater, (space_leading _).append fun c hc =>
        hspace c (List.mem_append_right _ hc)⟩
    · intro hall
      obtain ⟨hclear, space, hlast, hspace⟩ := hall place forced hends
      obtain ⟨head, gap, next, hhead, hnext, hgap, rfl⟩ := hstart.cut hroom hends hclear
      obtain ⟨later, hlater, rfl⟩ := hlast.lstrip
      have hafter := hnext.after
      rw [drop_afterSpace] at hafter
      obtain rfl := hafter.unique hlater
      refine ⟨head, hhead, ?_⟩
      have hnextspace : Space next := fun c hc => hspace c (List.mem_append_right _ hc)
      have hstrip : strip ([] ++ head ++ (gap ++ next)) = strip head :=
        strip_append_space space_nil (hgap.append hnextspace)
      rwa [List.nil_append, ← List.append_assoc] at hstrip
  · rw [if_neg hlong] at hsplit
    have hwhole : restFrom html 0 false = html := rfl
    have hfirst : first = html := by
      split at hsplit
      · cases hsplit
      · exact (List.cons.inj (Option.some.inj hsplit)).1.symm
    exact iff_of_true ⟨shown, hfirst ▸ hdisplays, rfl⟩ fun place forced hends =>
      absurd hends.long hlong

end CodexServer.Markdown
