import CodexServer.Proof.ValidChunks

/-!
# Chunks that lose nothing

The chunks have the text of the whole, each character in a code block or not as it was, if every cut
is in no tag and every cut by force is in a code block, with no space around it but one line end.
-/

open Markup

namespace CodexServer.Markdown

variable {text other rest sep : Text} {limit start place : Nat} {reopened forced nested : Bool}

/-! ### Code blocks -/

/-- Whether the place after the pieces is in a code block, if the one before them is. -/
def withinCode (code : Bool) : List Piece → Bool
  | [] => code
  | .char _ :: pieces => withinCode code pieces
  | .tag inside :: pieces =>
      withinCode (inside = "pre".toList || (code && inside ≠ "/pre".toList)) pieces

/-- The text with the tags removed; each character with whether it is in a code block. -/
def marked (code : Bool) : List Piece → List (Char × Bool)
  | [] => []
  | .char c :: pieces => (c, code) :: marked code pieces
  | .tag inside :: pieces =>
      marked (inside = "pre".toList || (code && inside ≠ "/pre".toList)) pieces

variable {pieces more : List Piece} {code : Bool}

theorem withinCode_append : withinCode code (pieces ++ more) =
    withinCode (withinCode code pieces) more := by
  induction pieces generalizing code with
  | nil => rfl
  | cons piece pieces ih => cases piece <;> exact ih

theorem marked_append : marked code (pieces ++ more) =
    marked code pieces ++ marked (withinCode code pieces) more := by
  induction pieces generalizing code with
  | nil => rfl
  | cons piece pieces ih =>
      cases piece with
      | char c => exact congrArg ((c, code) :: ·) ih
      | tag inside => exact ih

theorem withinCode_chars : withinCode code (text.map .char) = code := by
  induction text with
  | nil => rfl
  | cons c text ih => exact ih

theorem marked_chars : marked code (text.map .char) = text.map fun c => (c, code) := by
  induction text with
  | nil => rfl
  | cons c text ih => exact congrArg ((c, code) :: ·) ih

/-- A block is open after the pieces only if its tag is the last of the two kinds. -/
theorem withinCode_true (h : withinCode code pieces = true) :
    (code = true ∧ .tag "/pre".toList ∉ pieces) ∨
      ∃ first last, pieces = first ++ .tag "pre".toList :: last ∧ .tag "/pre".toList ∉ last := by
  induction pieces generalizing code with
  | nil => exact .inl ⟨h, nofun⟩
  | cons piece pieces ih =>
      cases piece with
      | char c =>
          rcases ih h with ⟨hcode, hnone⟩ | ⟨first, last, rfl, hnone⟩
          · exact .inl ⟨hcode, by simpa using hnone⟩
          · exact .inr ⟨.char c :: first, last, rfl, hnone⟩
      | tag inside =>
          rcases ih h with ⟨hopen, hnone⟩ | ⟨first, last, rfl, hnone⟩
          · by_cases hpre : inside = "pre".toList
            · exact .inr ⟨[], pieces, by rw [hpre, List.nil_append], hnone⟩
            · simp only [hpre, decide_false, Bool.false_or, Bool.and_eq_true] at hopen
              have hkept : inside ≠ "/pre".toList := of_decide_eq_true hopen.2
              refine .inl ⟨hopen.1, fun hmem => ?_⟩
              rcases List.mem_cons.mp hmem with htag | hlater
              · exact hkept (Piece.tag.inj htag).symm
              · exact hnone hlater
          · exact .inr ⟨.tag inside :: first, last, rfl, hnone⟩

theorem reads_preClose : Reads preClose [.tag "/pre".toList] := by
  unfold Reads
  decide

/-- **Outside of the blocks** of the text is outside of the code of its pieces. -/
theorem withinCode_of_not_inBlock (hreads : Reads (text.take place) pieces)
    (hout : ¬InBlock text place) : withinCode false pieces = false := by
  refine Bool.eq_false_iff.mpr fun hwithin => hout ?_
  rcases withinCode_true hwithin with ⟨hfalse, -⟩ | ⟨first, last, rfl, hnone⟩
  · cases hfalse
  obtain ⟨before, after, htake, -, hafter⟩ := hreads.split_tag
  have hopens : preOpen = '<' :: ("pre".toList ++ ['>']) := by decide
  have hlength : preOpen.length = 5 := by decide
  rw [← hopens] at htake
  have hplace := congrArg List.length htake
  rw [List.length_append, List.length_append, List.length_take] at hplace
  have hopen : preOpen <+: text.drop before.length := by
    rw [← List.take_append_drop place text, htake, List.append_assoc, List.append_assoc,
      List.drop_left]
    exact List.prefix_append _ _
  refine ⟨before.length, by omega, hopen, fun close hle hclose => ?_⟩
  by_contra hwithin
  have hapart := preOpen_before hopen hclose hle
  have hinside : preClose <+: (text.take place).drop close := by
    rw [List.drop_take, List.prefix_take_iff]
    exact ⟨hclose, by omega⟩
  obtain ⟨gap, rfl⟩ := Nat.exists_eq_add_of_le hapart
  rw [htake, List.append_assoc, Nat.add_assoc, List.drop_length_add_append,
    List.drop_length_add_append] at hinside
  obtain ⟨rest, hrest⟩ := hinside
  have hcons : preClose = '<' :: preClose.tail := by decide
  have hsplit : after = after.take gap ++ (preClose ++ rest) := by
    rw [hrest, List.take_append_drop]
  have hread := hsplit ▸ hafter
  obtain ⟨front, hfront⟩ : ∃ front, Reads (after.take gap) front := by
    rw [hcons, List.cons_append] at hread
    exact hread.of_append_open
  obtain ⟨back, hback, rfl⟩ := hread.split hfront
  obtain ⟨tail, -, rfl⟩ := hback.split reads_preClose
  exact hnone (by simp)

/-- A cut at a separator is outside of code blocks. -/
theorem CutAt.outside {cut : Nat} (h : CutAt rest limit cut false)
    (hreads : Reads (rest.take cut) pieces) : withinCode false pieces = false := by
  cases h with
  | separator hparts =>
      obtain ⟨sep, index, hsep, hspace, rfl, -, hstands⟩ := hparts.stands (spaced_separators limit)
      have hsplit : rest.take (index + sep.length) = rest.take index ++ sep := by
        rw [List.take_add, List.prefix_iff_eq_take.mp hstands.starts]
        simp
      rw [hsplit] at hreads
      obtain ⟨first, hfirst, rfl⟩ := hreads.of_append_bare (Space.bare hspace)
      rw [withinCode_append, withinCode_of_not_inBlock hfirst hstands.outside, withinCode_chars]

/-! ### What is told -/

/-- The text with the tags removed. -/
def Tells (text : Text) (content : List (Char × Bool)) : Prop :=
  ∃ pieces, Reads text pieces ∧ content = marked false pieces

theorem Tells.unique {content later : List (Char × Bool)} (h : Tells text content)
    (hother : Tells text later) : content = later := by
  obtain ⟨pieces, hreads, rfl⟩ := h
  obtain ⟨more, hmore, rfl⟩ := hother
  rw [hreads.unique hmore]

/-- What may be lost between two chunks: space outside of code blocks, or the line end where a block
was cut. -/
def MayBeLost (gap : List (Char × Bool)) : Prop :=
  (∀ entry ∈ gap, isPythonSpace entry.1 = true ∧ entry.2 = false) ∨ gap = [('\n', true)]

theorem mayBeLost_iff (h : Space text) (code : Bool) :
    MayBeLost (text.map fun c => (c, code)) ↔ (code = true → text ∈ [[], "\n".toList]) := by
  cases code with
  | false =>
      refine iff_of_true (.inl fun entry hmem => ?_) fun hcode => by cases hcode
      obtain ⟨c, hc, rfl⟩ := List.mem_map.mp hmem
      exact ⟨h c hc, rfl⟩
  | true =>
      constructor
      · rintro (hout | hline) -
        · cases text with
          | nil => exact List.mem_cons_self
          | cons c text => cases (hout (c, true) (by simp)).2
        · obtain ⟨c, rfl, hc⟩ := List.map_eq_singleton_iff.mp hline
          obtain rfl : c = '\n' := congrArg Prod.fst hc
          decide
      · intro hkept
        have hcases : text = [] ∨ text = "\n".toList := by simpa using hkept rfl
        rcases hcases with rfl | rfl
        · exact .inl fun entry hmem => by cases hmem
        · exact .inr (by decide)

/-- The contents of the messages are the whole, but for what may be lost between two of them. -/
inductive Reproduced : List (Char × Bool) → List (List (Char × Bool)) → Prop
  | nil : Reproduced [] []
  | last (content : List (Char × Bool)) : Reproduced content [content]
  | seam {head gap next : List (Char × Bool)} {contents : List (List (Char × Bool))} :
      MayBeLost gap → Reproduced next contents → Reproduced (head ++ gap ++ next) (head :: contents)

/-- The messages have the text of the whole, in code blocks and outside of them as it was. -/
def KeepsContent (text : Text) (chunks : List Text) : Prop :=
  ∃ whole contents, Tells text whole ∧ List.Forall₂ Tells chunks contents ∧
    Reproduced whole contents

/-! ### One cut -/

/-- The place is in no tag. If it is cut by force there, it is in a code block and has no space around
it but for one line end. -/
def KeptAt (text : Text) (place : Nat) (forced : Bool) : Prop :=
  ∃ pieces, Reads (text.take place) pieces ∧ (forced = true → withinCode false pieces = true ∧
    trailing (text.take place) ++ leading (text.drop place) ∈ [[], "\n".toList])

theorem reads_codeOpen : Reads codeOpen [.tag "pre".toList, .tag "code".toList] := by
  unfold Reads
  decide

theorem tagsBefore_spec (reopened : Bool) : ∃ pieces, Reads (tagsBefore reopened) pieces ∧
    withinCode false pieces = reopened ∧ marked false pieces = [] := by
  cases reopened with
  | false => exact ⟨[], .nil, rfl, rfl⟩
  | true => exact ⟨_, reads_codeOpen, by decide, by decide⟩

theorem tagsAfter_spec (forced : Bool) : ∃ pieces, Reads (tagsAfter forced) pieces ∧
    ∀ code, marked code pieces = [] := by
  cases forced with
  | false => exact ⟨[], .nil, fun _ => rfl⟩
  | true => exact ⟨_, reads_codeClose, fun _ => rfl⟩

/-- What is left of the text at the start of a message, in a code block just if its tags are put
before it. -/
structure Told (text : Text) (start : Nat) (reopened : Bool) (content : List (Char × Bool)) :
    Prop where
  before : ∃ first, Reads (text.take start) first ∧ withinCode false first = reopened
  after : ∃ last, Reads (text.drop start) last ∧ content = marked reopened last
  solid : Solid (text.drop start)

variable {content : List (Char × Bool)}

theorem Told.tells (h : Told text start reopened content) :
    Tells (restFrom text start reopened) content := by
  obtain ⟨last, hlast, rfl⟩ := h.after
  obtain ⟨tags, htags, hwithin, hmarked⟩ := tagsBefore_spec reopened
  exact ⟨tags ++ last, htags.append hlast, by rw [marked_append, hmarked, hwithin, List.nil_append]⟩

theorem Told.nil (h : Told text start reopened content) (hempty : restFrom text start reopened = []) :
    content = [] := by
  obtain ⟨pieces, hreads, rfl⟩ := h.tells
  rw [hempty] at hreads
  rw [hreads.unique .nil]
  rfl

/-- What a message takes of the text has more in it than space. -/
theorem Told.rstrip_ne_nil (h : Told text start reopened content) (hlt : start < place)
    (hwithin : place < text.length) : rstrip ((text.drop start).take (place - start)) ≠ [] := by
  refine Solid.rstrip_ne_nil (solid_of_isPrefix h.solid (List.take_prefix _ _)) fun hnil => ?_
  have hlength := congrArg List.length hnil
  rw [List.length_take, List.length_drop, List.length_nil] at hlength
  omega

/-- What is read around a cut: the space is taken away on both sides. -/
theorem reads_around {taken after : Text} {middle : List Piece} (htaken : Reads taken middle)
    (hafter : Reads after more) : ∃ front back,
      Reads (rstrip taken) front ∧ Reads (lstrip after) back ∧
        middle = front ++ (trailing taken).map .char ∧ more = (leading after).map .char ++ back := by
  have hbefore : Reads (rstrip taken ++ trailing taken) middle :=
    (rstrip_append_trailing taken).symm ▸ htaken
  have hrest : Reads (leading after ++ lstrip after) more :=
    (leading_append_lstrip after).symm ▸ hafter
  obtain ⟨front, hfront, hmiddle⟩ := hbefore.of_append_bare (space_trailing _).bare
  obtain ⟨back, hback, hmore⟩ := hrest.split (reads_bare (space_leading _).bare)
  exact ⟨front, back, hfront, hback, hmiddle, hmore⟩

/-- A cut at a separator is outside of code blocks, for the text as for the rest. -/
theorem EndsAt.outside (h : EndsAt limit text start reopened place false) (hroom : 24 < limit)
    (hreads : Reads ((text.drop start).take (place - start)) pieces) :
    withinCode reopened pieces = false := by
  obtain ⟨cut, hcut, -, -, htake⟩ := h.taken hroom
  obtain ⟨tags, htags, htagged, -⟩ := tagsBefore_spec reopened
  have hout := hcut.outside (htake ▸ htags.append hreads)
  rwa [withinCode_append, htagged] at hout

/-- **Nothing is lost at a kept cut**: what is left is told by the message and what is left after
it. -/
theorem Told.cut (h : Told text start reopened content) (hroom : 24 < limit)
    (hends : EndsAt limit text start reopened place forced) (hkept : KeptAt text place forced) :
    ∃ head next, Tells (cutOff limit (restFrom text start reopened)).1 head ∧
      Told text (afterSpace text place) forced next ∧
      ∀ {contents}, Reproduced next contents → Reproduced content (head :: contents) := by
  obtain ⟨hlt, hwithin, hmessage, -⟩ := hends.spec hroom
  have hne := h.rstrip_ne_nil hlt hwithin
  obtain ⟨all, hall, hforced⟩ := hkept
  obtain ⟨first, hfirst, hopened⟩ := h.before
  obtain ⟨last, hlast, rfl⟩ := h.after
  have hsplit := hall
  rw [take_eq_append hlt.le] at hsplit hforced
  rw [drop_eq_append hlt.le] at hlast
  rw [trailing_append hne] at hforced
  obtain ⟨middle, hmiddle, rfl⟩ := hsplit.split hfirst
  obtain ⟨more, hmore, rfl⟩ := hlast.split hmiddle
  obtain ⟨front, back, hfront, hback, rfl, rfl⟩ := reads_around hmiddle hmore
  have hcode : withinCode reopened front = forced := by
    have hmoved (space : Text) : withinCode reopened (front ++ space.map .char) =
        withinCode reopened front :=
      withinCode_append.trans withinCode_chars
    rw [← hmoved]
    cases forced with
    | true =>
        have hin := (hforced rfl).1
        rwa [withinCode_append, hopened] at hin
    | false => exact hends.outside hroom hmiddle
  generalize (text.drop start).take (place - start) = taken at *
  have hgap : MayBeLost ((trailing taken ++ leading (text.drop place)).map fun c => (c, forced)) := by
    refine (mayBeLost_iff (fun c hmem => ?_) forced).mpr fun hforce => (hforced hforce).2
    rcases List.mem_append.mp hmem with hleft | hright
    · exact space_trailing _ c hleft
    · exact space_leading _ c hright
  obtain ⟨tags, htags, htagged, hunmarked⟩ := tagsBefore_spec reopened
  obtain ⟨ending, hending, hendless⟩ := tagsAfter_spec forced
  refine ⟨marked reopened front, marked forced back, ?_, ⟨?_, ?_, ?_⟩, fun hlater => ?_⟩
  · rw [hmessage, rstrip_append hne]
    refine ⟨tags ++ front ++ ending, (htags.append hfront).append hending, ?_⟩
    rw [marked_append, marked_append, hunmarked, htagged, hendless, List.nil_append,
      List.append_nil]
  · rw [take_afterSpace]
    refine ⟨_, hall.append (reads_bare (space_leading _).bare), ?_⟩
    rw [withinCode_append, withinCode_chars, withinCode_append, hopened, withinCode_append,
      withinCode_chars, hcode]
  · rw [drop_afterSpace]
    exact ⟨back, hback, rfl⟩
  · rw [drop_afterSpace]
    exact solid_lstrip _
  · have hseam := @Reproduced.seam (marked reopened front) _ _ _ hgap hlater
    simpa only [marked_append, withinCode_append, withinCode_chars, marked_chars, hcode,
      List.map_append, List.append_assoc] using hseam

/-! ### All cuts -/

/-- Between a place of the text and its end everything is read from outside of tags. -/
def Parted (text : Text) (place : Nat) : Prop :=
  (∃ first, Reads (text.take place) first) ∧ ∃ last, Reads (text.drop place) last

theorem Parted.reads_rest (h : Parted text start) :
    ∃ found, Reads (restFrom text start reopened) found := by
  obtain ⟨-, last, hlast⟩ := h
  obtain ⟨tags, htags, -⟩ := tagsBefore_spec reopened
  exact ⟨_, htags.append hlast⟩

theorem Parted.afterSpace {first : List Piece} (hreads : Reads text pieces)
    (h : Reads (text.take place) first) : Parted text (Markdown.afterSpace text place) := by
  have hbefore := h.append (reads_bare (space_leading (text.drop place)).bare)
  rw [← take_afterSpace] at hbefore
  have hwhole : Reads (text.take (Markdown.afterSpace text place) ++
      text.drop (Markdown.afterSpace text place)) pieces :=
    (List.take_append_drop _ text).symm ▸ hreads
  obtain ⟨last, hlast, -⟩ := hwhole.split hbefore
  exact ⟨⟨_, hbefore⟩, last, hlast⟩

/-- A message that is read ends where the text is in no tag. -/
theorem reads_message (hroom : 24 < limit) (hfirst : Reads (text.take start) pieces)
    (hends : EndsAt limit text start reopened place forced) :
    (∃ found, Reads (cutOff limit (restFrom text start reopened)).1 found) ↔
      ∃ found, Reads (text.take place) found := by
  obtain ⟨hlt, -, hmessage, -⟩ := hends.spec hroom
  obtain ⟨tags, htags, -⟩ := tagsBefore_spec reopened
  obtain ⟨ending, hending, -⟩ := tagsAfter_spec forced
  rw [hmessage, take_eq_append hlt.le]
  generalize (text.drop start).take (place - start) = taken
  have hspace := rstrip_append_trailing (tagsBefore reopened ++ taken)
  constructor
  · rintro ⟨found, hfound⟩
    obtain ⟨front, hfront⟩ : ∃ front, Reads (rstrip (tagsBefore reopened ++ taken)) front := by
      cases forced with
      | false => exact ⟨found, by simpa [tagsAfter] using hfound⟩
      | true =>
          have hcons : codeClose = '<' :: codeClose.tail := by decide
          rw [tagsAfter, if_pos rfl, hcons] at hfound
          exact hfound.of_append_open
    have hall := hfront.append (reads_bare (space_trailing (tagsBefore reopened ++ taken)).bare)
    rw [hspace] at hall
    obtain ⟨middle, hmiddle, -⟩ := hall.split htags
    exact ⟨_, hfirst.append hmiddle⟩
  · rintro ⟨found, hfound⟩
    obtain ⟨middle, hmiddle, -⟩ := hfound.split hfirst
    have hall := htags.append hmiddle
    rw [← hspace] at hall
    obtain ⟨front, hfront, -⟩ := hall.of_append_bare (space_trailing _).bare
    exact ⟨_, hfront.append hending⟩

/-- The messages are read one by one just if every cut is in no tag. -/
theorem messages_read (hroom : 24 < limit) (hreads : Reads text pieces) {chunks : List Text}
    (hsplit : splitChunks text limit = some chunks) :
    (∀ chunk ∈ chunks, ∃ found, Reads chunk found) ↔ ∀ place forced, IsCut limit text place forced →
      ∃ found, Reads (text.take place) found := by
  have hsplit' : splitFrom limit (text.length + 1) (restFrom text 0 false) = some chunks := hsplit
  have hparted : Parted text 0 := ⟨⟨[], .nil⟩, pieces, hreads⟩
  refine splitFrom_iff hroom (fun chunk => ∃ found, Reads chunk found)
    (fun start _ => Parted text start) (fun place _ => ∃ found, Reads (text.take place) found)
    (fun h _ _ => h.reads_rest) (fun ⟨⟨first, hfirst⟩, _⟩ hends =>
      ⟨reads_message hroom hfirst hends, ?_⟩) hsplit' hparted
  rintro ⟨found, hfound⟩
  exact Parted.afterSpace hreads hfound

/-- **The chunks lose nothing** if every cut is a kept one, and only if every cut is in no tag. -/
theorem chunks_keep_content (blocks : Forest nested .blocks) :
    ∃ text chunks, renderedText blocks = some text ∧
      splitChunks text messageLimit = some chunks ∧
      ((∀ place forced, IsCut messageLimit text place forced → KeptAt text place forced) →
        KeepsContent text chunks) ∧
      (KeepsContent text chunks → ∀ place forced, IsCut messageLimit text place forced →
        ∃ pieces, Reads (text.take place) pieces) := by
  have hroom : 24 < messageLimit := by decide
  obtain ⟨text, -, htext, hsolid, ⟨pieces, hreads, -⟩, -⟩ := renderedText_spec blocks
  obtain ⟨chunks, hchunks⟩ := splitChunks_some hroom text
  have hchunks' : splitFrom messageLimit (text.length + 1) (restFrom text 0 false) = some chunks :=
    hchunks
  refine ⟨text, chunks, htext, hchunks, fun hkept => ?_, ?_⟩
  · have htold : Told text 0 false (marked false pieces) :=
      ⟨⟨[], .nil, rfl⟩, ⟨pieces, hreads, rfl⟩, hsolid⟩
    have hnil {start : Nat} {reopened : Bool} {content : List (Char × Bool)}
        (h : Told text start reopened content) (hempty : restFrom text start reopened = []) :
        Reproduced content [] :=
      h.nil hempty ▸ .nil
    obtain ⟨contents, hcontents, hwhole⟩ := splitFrom_contents hroom Tells Reproduced
      (Told text) (KeptAt text) hnil
      (fun h => ⟨h.tells, .last _⟩) (fun h hends hkept => h.cut hroom hends hkept) hchunks' htold
      hkept
    exact ⟨_, contents, ⟨pieces, hreads, rfl⟩, hcontents, hwhole⟩
  · rintro ⟨whole, contents, -, hcontents, -⟩
    have hboth : List.Forall₂ (fun chunk content => (∃ found, Reads chunk found) ∧
        Tells chunk content) chunks contents :=
      hcontents.imp fun chunk content htells => ⟨⟨_, htells.choose_spec.1⟩, htells⟩
    exact (messages_read hroom hreads hchunks).mp ((List.forall₂_and_left _ _).mp hboth).1

theorem Reproduced.mem {whole : List (Char × Bool)} {contents : List (List (Char × Bool))}
    (h : Reproduced whole contents) {content : List (Char × Bool)} (hmem : content ∈ contents)
    {entry : Char × Bool} (hentry : entry ∈ content) : entry ∈ whole := by
  induction h with
  | nil => cases hmem
  | last only => rwa [← List.mem_singleton.mp hmem]
  | seam hgap _ ih =>
      rcases List.mem_cons.mp hmem with rfl | hlater
      · exact List.mem_append_left _ (List.mem_append_left _ hentry)
      · exact List.mem_append_right _ (ih hlater)

theorem lstrip_replicate_a (length : Nat) :
    lstrip (List.replicate length 'a') = List.replicate length 'a' := by
  unfold lstrip
  simp [space_a]

/-- The end of a word that is longer than a message is put into a code block. -/
theorem long_word_in_code : ∃ text chunks whole, renderedText (word 5000) = some text ∧
    splitChunks text messageLimit = some chunks ∧ Tells text whole ∧
    ¬∃ contents, List.Forall₂ Tells chunks contents ∧ Reproduced whole contents := by
  have hbare (length : Nat) : Bare (List.replicate length 'a') := fun c hc => by
    rw [List.eq_of_mem_replicate hc]
    decide
  have hcut : safeCut (List.replicate 5000 'a') messageLimit = (4083, true) :=
    cutAt_iff.mp (cutAt_unbroken fun c hc => by
      rw [List.eq_of_mem_replicate hc]
      exact space_a)
  have hlong : messageLimit < (List.replicate 5000 'a').length := by
    rw [List.length_replicate]
    decide
  have hrest : (cutOff messageLimit (List.replicate 5000 'a')).2 =
      codeOpen ++ List.replicate 917 'a' := by
    rw [cutOff_forced hcut, List.drop_replicate, lstrip_replicate_a]
  have hshort : ¬messageLimit < (codeOpen ++ List.replicate 917 'a').length := by
    rw [List.length_append, List.length_replicate]
    decide
  have hfilled : (codeOpen ++ List.replicate 917 'a').isEmpty = false := by
    refine List.isEmpty_eq_false_iff.mpr fun hnil => ?_
    exact absurd (List.append_eq_nil_iff.mp hnil).1 (by decide)
  have hsplit (fuel : Nat) : splitFrom messageLimit (fuel + 2) (List.replicate 5000 'a') =
      some [(cutOff messageLimit (List.replicate 5000 'a')).1,
        codeOpen ++ List.replicate 917 'a'] := by
    rw [splitFrom, if_pos hlong, hrest, splitFrom, if_neg hshort, hfilled, Option.map_some]
    exact congrArg some rfl
  refine ⟨_, [(cutOff messageLimit (List.replicate 5000 'a')).1,
    codeOpen ++ List.replicate 917 'a'], _, renderedText_word 5000, ?_,
    ⟨_, reads_bare (hbare 5000), rfl⟩, ?_⟩
  · have hfuel : (List.replicate 5000 'a').length + 1 = 4999 + 2 := by rw [List.length_replicate]
    unfold splitChunks
    rw [hfuel]
    exact hsplit 4999
  · rintro ⟨contents, htells, hreproduced⟩
    obtain ⟨first, contents, -, hmore, rfl⟩ := List.forall₂_cons_left_iff.mp htells
    obtain ⟨last, contents, hlast, -, rfl⟩ := List.forall₂_cons_left_iff.mp hmore
    have hcode : Tells (codeOpen ++ List.replicate 917 'a')
        (marked true ((List.replicate 917 'a').map .char)) :=
      ⟨_, reads_codeOpen.append (reads_bare (hbare _)), rfl⟩
    have hentry : ('a', true) ∈ marked true ((List.replicate 917 'a').map .char) := by
      rw [marked_chars]
      exact List.mem_map_of_mem (List.mem_replicate.mpr ⟨by decide, rfl⟩)
    rw [← hlast.unique hcode] at hentry
    have hmem := hreproduced.mem (List.mem_cons_of_mem _ List.mem_cons_self) hentry
    rw [marked_chars] at hmem
    obtain ⟨c, -, hc⟩ := List.mem_map.mp hmem
    cases hc

end CodexServer.Markdown
