import CodexServer.Proof.Cuts
import Mathlib.Data.List.Forall2

/-!
# Chunks

Each turn of the loop cuts the rest at a place of the text, after the tags that were put before it.
So the loop ends, and the places where a text is cut are told by the text alone.
-/

namespace CodexServer.Markdown

variable {text other rest sep : Text} {limit : Nat}

/-! ### The loop -/

/-- What the loop comes to. -/
inductive Comes (limit : Nat) (text : Text) : Text → Prop
  | start : Comes limit text text
  | next {rest : Text} : Comes limit text rest → limit < rest.length →
      Comes limit text (cutOff limit rest).2

/-! ### The loop ends -/

/-- What is left to cut, less the tags put before it. -/
def remaining (rest : Text) : Nat :=
  rest.length - if codeOpen.isPrefixOf rest then codeOpen.length else 0

/-- No separator begins in the tags that open a code block. -/
theorem codeOpen_before {index : Nat} (hopen : codeOpen <+: text) (hsep : sep ≠ [])
    (hspace : ∀ c ∈ sep, isPythonSpace c = true) (h : sep <+: text.drop index) :
    codeOpen.length ≤ index := by
  by_contra hlt
  obtain ⟨c, more, rfl⟩ := List.exists_cons_of_ne_nil hsep
  have hcode := List.getElem?_eq_getElem (Nat.lt_of_not_le hlt)
  have hfirst : codeOpen <+: text.drop 0 := hopen
  have hsame := same_of_isPrefix hfirst (Nat.zero_le index) hcode h (d := c) rfl
  have hall : (codeOpen.all fun d => !isPythonSpace d) = true := by decide
  have hmem := List.all_eq_true.mp hall _ (List.getElem_mem (Nat.lt_of_not_le hlt))
  rw [hsame, hspace c List.mem_cons_self] at hmem
  cases hmem

theorem codeClose_length : codeClose.length = 13 := by decide

theorem codeOpen_length : codeOpen.length = 11 := by decide

theorem PartsAfter.stands {seps : List (Text × Nat)} {place : Nat} (hseps : Spaced seps)
    (h : PartsAfter text limit seps place) : ∃ sep index, sep ≠ [] ∧
      (∀ c ∈ sep, isPythonSpace c = true) ∧ place = index + sep.length ∧ 0 < index ∧
      Stands sep text limit index := by
  induction h with
  | @last sep threshold index seps hlate hstands _ =>
      obtain ⟨hsep, hspace⟩ := hseps (sep, threshold) List.mem_cons_self
      exact ⟨sep, index, hsep, hspace, rfl, Nat.zero_lt_of_lt hlate, hstands⟩
  | next _ _ ih => exact ih fun entry hmem => hseps entry (List.mem_cons_of_mem _ hmem)

/-- The place of a cut: with room for the tags that close a block, and not in those put before. -/
theorem CutAt.bounds {place : Nat} {forced : Bool} (h : CutAt rest limit place forced)
    (hroom : 24 < limit) : 0 < place ∧ place ≤ limit ∧
      (forced = true → place ≤ limit - codeClose.length) ∧
      (codeOpen <+: rest → codeOpen.length < place) := by
  have hclose := codeClose_length
  have hopen := codeOpen_length
  cases h with
  | separator hparts =>
      obtain ⟨sep, index, hsep, hspace, rfl, hpos, hstands⟩ :=
        hparts.stands (spaced_separators limit)
      have hlength := List.length_pos_iff.mpr hsep
      refine ⟨by omega, hstands.fits, nofun, fun hstart => ?_⟩
      have hbefore := codeOpen_before hstart hsep hspace hstands.starts
      omega
  | line _ hpos hends _ =>
      have hfits := hends.fits
      refine ⟨by omega, by omega, fun _ => hfits, fun hstart => ?_⟩
      have hbefore := codeOpen_before hstart (by decide) newline_spaced hends.starts
      omega
  | room => exact ⟨by omega, by omega, fun _ => le_rfl, fun _ => by omega⟩

theorem safeCut_bounds (rest : Text) (hroom : 24 < limit) :
    0 < (safeCut rest limit).1 ∧ (safeCut rest limit).1 ≤ limit ∧
      ((safeCut rest limit).2 = true → (safeCut rest limit).1 ≤ limit - codeClose.length) ∧
      (codeOpen <+: rest → codeOpen.length < (safeCut rest limit).1) :=
  (cutAt_safeCut rest limit).bounds hroom

theorem length_lstrip_le (text : Text) : (lstrip text).length ≤ text.length :=
  (List.dropWhile_suffix _).length_le

theorem remaining_cutOff (hroom : 24 < limit) (hlong : limit < rest.length) :
    remaining (cutOff limit rest).2 < remaining rest := by
  obtain ⟨hpos, hle, -, hafter⟩ := safeCut_bounds rest hroom
  have hstrip := length_lstrip_le (rest.drop (safeCut rest limit).1)
  rw [List.length_drop] at hstrip
  have hnext : remaining (cutOff limit rest).2 ≤ rest.length - (safeCut rest limit).1 := by
    unfold cutOff remaining
    dsimp only
    split
    · have hbegins : codeOpen.isPrefixOf
          (codeOpen ++ lstrip (rest.drop (safeCut rest limit).1)) = true := by
        simp
      rw [if_pos hbegins, List.length_append]
      omega
    · exact (Nat.sub_le _ _).trans hstrip
  refine Nat.lt_of_le_of_lt hnext ?_
  unfold remaining
  split
  · next hbegins =>
      have hcut := hafter (List.isPrefixOf_iff_prefix.mp hbegins)
      omega
  · omega

theorem splitFrom_some (hroom : 24 < limit) {fuel : Nat} (hfuel : remaining rest < fuel) :
    ∃ chunks, splitFrom limit fuel rest = some chunks := by
  induction fuel generalizing rest with
  | zero => omega
  | succ fuel ih =>
      unfold splitFrom
      by_cases hlong : limit < rest.length
      · have hless := remaining_cutOff hroom hlong
        have hnext : ∃ chunks, splitFrom limit fuel (cutOff limit rest).2 = some chunks :=
          ih (by omega)
        obtain ⟨chunks, hchunks⟩ := hnext
        exact ⟨_, by rw [if_pos hlong, hchunks]; rfl⟩
      · exact ⟨_, if_neg hlong⟩

/-- The loop ends. -/
theorem splitChunks_some (hroom : 24 < limit) (text : Text) :
    ∃ chunks, splitChunks text limit = some chunks :=
  splitFrom_some hroom (Nat.lt_succ_of_le (Nat.sub_le _ _))

/-! ### Space -/

/-- A text of space only. -/
def Space (text : Text) : Prop := ∀ c ∈ text, isPythonSpace c = true

/-- The space that a text begins with. -/
def leading (text : Text) : Text := text.takeWhile isPythonSpace

def trailing (text : Text) : Text := text.rtakeWhile isPythonSpace

theorem leading_append_lstrip (text : Text) : leading text ++ lstrip text = text :=
  List.takeWhile_append_dropWhile

theorem rstrip_append_trailing (text : Text) : rstrip text ++ trailing text = text := by
  unfold rstrip trailing
  rw [List.rdropWhile, List.rtakeWhile, ← List.reverse_append, List.takeWhile_append_dropWhile,
    List.reverse_reverse]

theorem space_leading (text : Text) : Space (leading text) := fun _ hc => List.mem_takeWhile_imp hc

theorem space_trailing (text : Text) : Space (trailing text) := fun _ hc =>
  List.mem_rtakeWhile_imp hc

theorem take_leading (text : Text) : text.take (leading text).length = leading text :=
  (congrArg (List.take _) (leading_append_lstrip text)).symm.trans List.take_left

theorem lstrip_split (text : Text) : ∃ space, Space space ∧ text = space ++ lstrip text :=
  ⟨leading text, space_leading text, (leading_append_lstrip text).symm⟩

theorem rstrip_split (text : Text) : ∃ space, Space space ∧ text = rstrip text ++ space :=
  ⟨trailing text, space_trailing text, (rstrip_append_trailing text).symm⟩

/-! ### What is left of the text -/

/-- The rest of the loop: what is left of the text, and whether tags were put before it. -/
structure Remainder where
  reopened : Bool
  original : Text

namespace Remainder

def whole (rest : Remainder) : Text :=
  if rest.reopened then codeOpen ++ rest.original else rest.original

def cutOff (limit : Nat) (rest : Remainder) : Remainder :=
  ⟨(safeCut rest.whole limit).2, lstrip (rest.whole.drop (safeCut rest.whole limit).1)⟩

end Remainder

/-- What the loop comes to, with its tags told from the text. -/
inductive Turns (limit : Nat) (text : Text) : Remainder → Prop
  | start : Turns limit text ⟨false, text⟩
  | next {rest : Remainder} : Turns limit text rest → limit < rest.whole.length →
      Turns limit text (rest.cutOff limit)

theorem whole_cutOff (rest : Remainder) :
    (rest.cutOff limit).whole = (cutOff limit rest.whole).2 := by
  change (if (safeCut rest.whole limit).2 then codeOpen ++ _ else _) = _
  unfold cutOff
  dsimp only
  split <;> rfl

theorem Comes.turns {found : Text} (h : Comes limit text found) :
    ∃ rest, Turns limit text rest ∧ rest.whole = found := by
  induction h with
  | start => exact ⟨_, .start, rfl⟩
  | next _ hlong ih =>
      obtain ⟨rest, hturns, rfl⟩ := ih
      exact ⟨_, hturns.next hlong, whole_cutOff rest⟩

/-- The next turn takes some of the text away. -/
def Remainder.Shrinks (limit : Nat) (rest : Remainder) : Prop :=
  ∃ removed, removed ≠ [] ∧ rest.original = removed ++ (rest.cutOff limit).original

/-- A cut falls after the tags. -/
theorem Remainder.shrinks (hroom : 24 < limit) (rest : Remainder)
    (hlong : limit < rest.whole.length) : rest.Shrinks limit := by
  obtain ⟨hpos, hle, -, hafter⟩ := safeCut_bounds rest.whole hroom
  obtain ⟨cut, hcut, hdrop⟩ : ∃ cut, 0 < cut ∧
      rest.whole.drop (safeCut rest.whole limit).1 = rest.original.drop cut := by
    cases hreopened : rest.reopened with
    | true =>
        have hwhole : rest.whole = codeOpen ++ rest.original := if_pos hreopened
        have hbeyond := hafter ⟨rest.original, hwhole.symm⟩
        refine ⟨(safeCut rest.whole limit).1 - codeOpen.length, by omega, ?_⟩
        generalize (safeCut rest.whole limit).1 = place at hbeyond
        rw [hwhole, List.drop_append, List.drop_eq_nil_of_le hbeyond.le, List.nil_append]
    | false =>
        have hwhole : rest.whole = rest.original := if_neg (by simp [hreopened])
        exact ⟨_, hpos, congrArg _ hwhole⟩
  have hne : rest.original ≠ [] := by
    intro hnil
    have hopen := codeOpen_length
    unfold Remainder.whole at hlong
    split at hlong
    · rw [hnil, List.append_nil] at hlong
      omega
    · rw [hnil, List.length_nil] at hlong
      omega
  obtain ⟨space, -, hspace⟩ := lstrip_split (rest.original.drop cut)
  refine ⟨rest.original.take cut ++ space, fun hnil => ?_, ?_⟩
  · have htaken := (List.append_eq_nil_iff.mp hnil).1
    rcases List.take_eq_nil_iff.mp htaken with hzero | hempty
    · omega
    · exact hne hempty
  · unfold Remainder.cutOff
    rw [hdrop, List.append_assoc, ← hspace, List.take_append_drop]

theorem Turns.suffix (hroom : 24 < limit) {rest : Remainder} (h : Turns limit text rest) :
    rest.original <:+ text := by
  induction h with
  | start => exact List.suffix_refl text
  | @next rest _ hlong ih =>
      obtain ⟨removed, -, hsplit⟩ := rest.shrinks hroom hlong
      rw [hsplit] at ih
      exact (List.suffix_append removed _).trans ih

/-- **The cut into chunks ends**, and each turn takes some of the text away. -/
theorem chunk_splitting_ends (hroom : codeOpen.length + codeClose.length + 1 < limit)
    (text : Text) : (∃ chunks, splitChunks text limit = some chunks) ∧
      ∀ found, Comes limit text found → ∃ rest, Turns limit text rest ∧ rest.whole = found ∧
        rest.original <:+ text ∧ (limit < found.length →
          (rest.cutOff limit).whole = (cutOff limit found).2 ∧ rest.Shrinks limit) := by
  have hwide : 24 < limit := by
    rw [codeOpen_length, codeClose_length] at hroom
    omega
  refine ⟨splitChunks_some hwide text, fun found hfound => ?_⟩
  obtain ⟨rest, hturns, rfl⟩ := hfound.turns
  exact ⟨rest, hturns, rfl, hturns.suffix hwide,
    fun hlong => ⟨whole_cutOff rest, rest.shrinks hwide hlong⟩⟩

/-- A text of more than one chunk of 26. -/
def fewWords : Text := "some words, and a few more of them".toList

theorem fewWords_splitting_ends : (∃ chunks, splitChunks fewWords 26 = some chunks) ∧
    ∀ found, Comes 26 fewWords found → ∃ rest, Turns 26 fewWords rest ∧ rest.whole = found ∧
      rest.original <:+ fewWords ∧ (26 < found.length →
        (rest.cutOff 26).whole = (cutOff 26 found).2 ∧ rest.Shrinks 26) :=
  chunk_splitting_ends (by decide) fewWords

/-! ### Where a message begins -/

def tagsBefore (reopened : Bool) : Text := if reopened then codeOpen else []

def tagsAfter (forced : Bool) : Text := if forced then codeClose else []

/-- What is left of the text from a place on, with tags put before it or not. -/
def restFrom (text : Text) (start : Nat) (reopened : Bool) : Text :=
  tagsBefore reopened ++ text.drop start

/-- The first place from this one on that has no space. -/
def afterSpace (text : Text) (place : Nat) : Nat := place + (leading (text.drop place)).length

theorem take_afterSpace (text : Text) (place : Nat) :
    text.take (afterSpace text place) = text.take place ++ leading (text.drop place) := by
  unfold afterSpace
  rw [List.take_add, take_leading]

theorem drop_afterSpace (text : Text) (place : Nat) :
    text.drop (afterSpace text place) = lstrip (text.drop place) := by
  have hsplit := leading_append_lstrip (text.drop place)
  unfold afterSpace
  rw [← List.drop_drop]
  exact (congrArg (List.drop _) hsplit).symm.trans List.drop_left

/-- A message that begins at the one place ends at the other, as the text is too long for it. -/
structure EndsAt (limit : Nat) (text : Text) (start : Nat) (reopened : Bool) (place : Nat)
    (forced : Bool) : Prop where
  long : limit < (restFrom text start reopened).length
  cut : ∃ cut, CutAt (restFrom text start reopened) limit cut forced ∧
    place + (tagsBefore reopened).length = start + cut

/-- The places where messages begin, if one begins at this place. -/
inductive Begins (limit : Nat) (text : Text) (start : Nat) (reopened : Bool) : Nat → Bool → Prop
  | first : Begins limit text start reopened start reopened
  | next {later place : Nat} {again forced : Bool} : Begins limit text start reopened later again →
      EndsAt limit text later again place forced →
      Begins limit text start reopened (afterSpace text place) forced

/-- A message that begins at this place, or a later one, ends there. -/
def CutAfter (limit : Nat) (text : Text) (start : Nat) (reopened : Bool) (place : Nat)
    (forced : Bool) : Prop :=
  ∃ later again, Begins limit text start reopened later again ∧
    EndsAt limit text later again place forced

/-- The text is cut at this place. -/
abbrev IsCut (limit : Nat) (text : Text) (place : Nat) (forced : Bool) : Prop :=
  CutAfter limit text 0 false place forced

variable {start place : Nat} {reopened forced : Bool}

theorem EndsAt.unique {place' : Nat} {forced' : Bool}
    (h : EndsAt limit text start reopened place forced)
    (hother : EndsAt limit text start reopened place' forced') :
    place = place' ∧ forced = forced' := by
  obtain ⟨cut, hcut, hplace⟩ := h.cut
  obtain ⟨cut', hcut', hplace'⟩ := hother.cut
  obtain ⟨rfl, rfl⟩ := hcut.unique hcut'
  exact ⟨by omega, rfl⟩

/-- A cut falls after the tags that were put before the rest. -/
theorem CutAt.after_tags {cut : Nat} (hroom : 24 < limit)
    (h : CutAt (restFrom text start reopened) limit cut forced) :
    (tagsBefore reopened).length < cut := by
  obtain ⟨hpos, -, -, hafter⟩ := h.bounds hroom
  cases reopened with
  | false => exact hpos
  | true => exact hafter (List.prefix_append _ _)

theorem exists_endsAt (hroom : 24 < limit) (hlong : limit < (restFrom text start reopened).length) :
    ∃ place forced, EndsAt limit text start reopened place forced := by
  have hcut := cutAt_safeCut (restFrom text start reopened) limit
  have htags := hcut.after_tags hroom
  exact ⟨start + (safeCut (restFrom text start reopened) limit).1 - (tagsBefore reopened).length,
    _, hlong, _, hcut, by omega⟩

/-- What the message takes of the rest. -/
theorem EndsAt.taken (h : EndsAt limit text start reopened place forced) (hroom : 24 < limit) :
    ∃ cut, CutAt (restFrom text start reopened) limit cut forced ∧
      place + (tagsBefore reopened).length = start + cut ∧ start < place ∧
      (restFrom text start reopened).take cut =
        tagsBefore reopened ++ (text.drop start).take (place - start) := by
  obtain ⟨cut, hcut, hplace⟩ := h.cut
  have htags := hcut.after_tags hroom
  have hsplit : cut = (tagsBefore reopened).length + (place - start) := by omega
  refine ⟨cut, hcut, hplace, by omega, ?_⟩
  rw [hsplit, restFrom, List.take_length_add_append]

/-- What a message that ends at a place is made of, and what is left. -/
theorem EndsAt.spec (h : EndsAt limit text start reopened place forced) (hroom : 24 < limit) :
    start < place ∧ place < text.length ∧
      (cutOff limit (restFrom text start reopened)).1 =
        rstrip (tagsBefore reopened ++ (text.drop start).take (place - start)) ++
          tagsAfter forced ∧
      (cutOff limit (restFrom text start reopened)).2 =
        restFrom text (afterSpace text place) forced := by
  obtain ⟨cut, hcut, hplace, hlt, htake⟩ := h.taken hroom
  have hle := (hcut.bounds hroom).2.1
  have hlong := h.long
  have hsplit : cut = (tagsBefore reopened).length + (place - start) := by omega
  have hdrop : (restFrom text start reopened).drop cut = text.drop place := by
    rw [hsplit, restFrom, List.drop_length_add_append, List.drop_drop]
    congr 1
    omega
  unfold cutOff
  rw [cutAt_iff.mp hcut]
  dsimp only
  rw [htake, hdrop, restFrom, drop_afterSpace]
  refine ⟨hlt, ?_, ?_⟩
  · rw [restFrom, List.length_append, List.length_drop] at hlong
    omega
  cases forced with
  | false => simp [tagsAfter, tagsBefore]
  | true => simp [tagsAfter, tagsBefore]

theorem drop_eq_append (hle : start ≤ place) :
    text.drop start = (text.drop start).take (place - start) ++ text.drop place := by
  have hplace : text.drop place = (text.drop start).drop (place - start) := by
    rw [List.drop_drop, Nat.add_sub_cancel' hle]
  rw [hplace, List.take_append_drop]

theorem take_eq_append (hle : start ≤ place) :
    text.take place = text.take start ++ (text.drop start).take (place - start) := by
  rw [← List.take_add, Nat.add_sub_cancel' hle]

/-- The cuts after a place are the first one, and those after it. -/
theorem EndsAt.cutAfter_iff (h : EndsAt limit text start reopened place forced) {later : Nat}
    {again : Bool} : CutAfter limit text start reopened later again ↔
      (later = place ∧ again = forced) ∨
        CutAfter limit text (afterSpace text place) forced later again := by
  constructor
  · rintro ⟨begin, opened, hbegins, hends⟩
    have hcases : (begin = start ∧ opened = reopened) ∨
        Begins limit text (afterSpace text place) forced begin opened := by
      clear hends
      induction hbegins with
      | first => exact .inl ⟨rfl, rfl⟩
      | next _ hnext ih =>
          refine .inr ?_
          rcases ih with ⟨rfl, rfl⟩ | hlater
          · obtain ⟨rfl, rfl⟩ := h.unique hnext
            exact .first
          · exact hlater.next hnext
    rcases hcases with ⟨rfl, rfl⟩ | hlater
    · obtain ⟨rfl, rfl⟩ := h.unique hends
      exact .inl ⟨rfl, rfl⟩
    · exact .inr ⟨begin, opened, hlater, hends⟩
  · rintro (⟨rfl, rfl⟩ | ⟨begin, opened, hbegins, hends⟩)
    · exact ⟨start, reopened, .first, h⟩
    · refine ⟨begin, opened, ?_, hends⟩
      clear hends
      induction hbegins with
      | first => exact Begins.first.next h
      | next _ hnext ih => exact ih.next hnext

theorem not_cutAfter (hshort : (restFrom text start reopened).length ≤ limit) {later : Nat}
    {again : Bool} : ¬CutAfter limit text start reopened later again := by
  rintro ⟨begin, opened, hbegins, hends⟩
  have hsame : begin = start ∧ opened = reopened := by
    clear hends
    induction hbegins with
    | first => exact ⟨rfl, rfl⟩
    | next _ hnext ih =>
        obtain ⟨rfl, rfl⟩ := ih
        have hlong := hnext.long
        omega
  obtain ⟨rfl, rfl⟩ := hsame
  have hlong := hends.long
  omega

/-- A law of the messages and a law of the cuts go together, if one turn of the loop relates them. -/
theorem splitFrom_iff (hroom : 24 < limit) (Good : Text → Prop) (Sound Clear : Nat → Bool → Prop)
    (hlast : ∀ {start reopened}, Sound start reopened →
      (restFrom text start reopened).length ≤ limit → restFrom text start reopened ≠ [] →
      Good (restFrom text start reopened))
    (hcut : ∀ {start reopened place forced}, Sound start reopened →
      EndsAt limit text start reopened place forced →
      (Good (cutOff limit (restFrom text start reopened)).1 ↔ Clear place forced) ∧
        (Clear place forced → Sound (afterSpace text place) forced))
    {fuel : Nat} {chunks : List Text}
    (hsplit : splitFrom limit fuel (restFrom text start reopened) = some chunks)
    (hsound : Sound start reopened) :
    (∀ chunk ∈ chunks, Good chunk) ↔
      ∀ place forced, CutAfter limit text start reopened place forced → Clear place forced := by
  induction fuel generalizing start reopened chunks with
  | zero => cases hsplit
  | succ fuel ih =>
      unfold splitFrom at hsplit
      by_cases hlong : limit < (restFrom text start reopened).length
      · rw [if_pos hlong] at hsplit
        obtain ⟨more, hmore, rfl⟩ := Option.map_eq_some_iff.mp hsplit
        obtain ⟨place, forced, hends⟩ := exists_endsAt hroom hlong
        obtain ⟨hgood, hnext⟩ := hcut hsound hends
        rw [(hends.spec hroom).2.2.2] at hmore
        simp only [List.mem_cons, forall_eq_or_imp, hgood, hends.cutAfter_iff]
        constructor
        · rintro ⟨hclear, hall⟩ later again (⟨rfl, rfl⟩ | hlater)
          · exact hclear
          · exact (ih hmore (hnext hclear)).mp hall later again hlater
        · intro hall
          have hclear := hall place forced (.inl ⟨rfl, rfl⟩)
          exact ⟨hclear, (ih hmore (hnext hclear)).mpr fun later again hlater =>
            hall later again (.inr hlater)⟩
      · rw [if_neg hlong] at hsplit
        cases hsplit
        have hshort := Nat.le_of_not_lt hlong
        refine iff_of_true (fun chunk hmem => ?_) fun later again hlater =>
          absurd hlater (not_cutAfter hshort)
        split at hmem
        · cases hmem
        · next hne =>
            obtain rfl := List.mem_singleton.mp hmem
            exact hlast hsound hshort (by simpa using hne)

/-- What the rest tells is what the messages tell, if that is so of one turn of the loop. -/
theorem splitFrom_contents (hroom : 24 < limit) {κ : Type} (Tell : Text → κ → Prop)
    (Whole : κ → List κ → Prop) (Sound : Nat → Bool → κ → Prop) (Clear : Nat → Bool → Prop)
    (hnil : ∀ {start reopened content}, Sound start reopened content →
      restFrom text start reopened = [] → Whole content [])
    (hlast : ∀ {start reopened content}, Sound start reopened content →
      Tell (restFrom text start reopened) content ∧ Whole content [content])
    (hcut : ∀ {start reopened place forced content}, Sound start reopened content →
      EndsAt limit text start reopened place forced → Clear place forced →
      ∃ head next, Tell (cutOff limit (restFrom text start reopened)).1 head ∧
        Sound (afterSpace text place) forced next ∧
        ∀ {contents}, Whole next contents → Whole content (head :: contents))
    {fuel : Nat} {chunks : List Text} {content : κ}
    (hsplit : splitFrom limit fuel (restFrom text start reopened) = some chunks)
    (hsound : Sound start reopened content)
    (hclear : ∀ place forced, CutAfter limit text start reopened place forced →
      Clear place forced) :
    ∃ contents, List.Forall₂ Tell chunks contents ∧ Whole content contents := by
  induction fuel generalizing start reopened chunks content with
  | zero => cases hsplit
  | succ fuel ih =>
      unfold splitFrom at hsplit
      by_cases hlong : limit < (restFrom text start reopened).length
      · rw [if_pos hlong] at hsplit
        obtain ⟨more, hmore, rfl⟩ := Option.map_eq_some_iff.mp hsplit
        obtain ⟨place, forced, hends⟩ := exists_endsAt hroom hlong
        obtain ⟨head, next, hhead, hnext, hwhole⟩ :=
          hcut hsound hends (hclear place forced (hends.cutAfter_iff.mpr (.inl ⟨rfl, rfl⟩)))
        rw [(hends.spec hroom).2.2.2] at hmore
        obtain ⟨contents, hcontents, hlater⟩ := ih hmore hnext fun later again h =>
          hclear later again (hends.cutAfter_iff.mpr (.inr h))
        exact ⟨head :: contents, .cons hhead hcontents, hwhole hlater⟩
      · rw [if_neg hlong] at hsplit
        cases hsplit
        split
        · next hempty => exact ⟨[], .nil, hnil hsound (List.isEmpty_iff.mp hempty)⟩
        · obtain ⟨htell, hwhole⟩ := hlast hsound
          exact ⟨[content], .cons htell .nil, hwhole⟩

/-! ### Texts that begin with no space -/

/-- The text does not begin with a space. -/
def Solid (text : Text) : Prop := ∀ c, text.head? = some c → isPythonSpace c = false

theorem solid_lstrip (text : Text) : Solid (lstrip text) := by
  intro c hc
  have hnot := List.head?_dropWhile_not isPythonSpace text
  unfold lstrip at hc
  rw [hc] at hnot
  simpa using hnot

theorem solid_of_isPrefix (h : Solid text) (hstarts : other <+: text) : Solid other := by
  obtain ⟨more, rfl⟩ := hstarts
  intro c hc
  exact h c (by rw [List.head?_append, hc, Option.some_or])

theorem Solid.rstrip (h : Solid text) : Solid (Markdown.rstrip text) := by
  obtain ⟨space, -, htext⟩ := rstrip_split text
  intro c hc
  refine h c ?_
  rw [htext, List.head?_append, hc]
  rfl

theorem solid_codeOpen (text : Text) : Solid (codeOpen ++ text) := by
  have hopen : codeOpen.head? = some '<' := by decide
  intro c hc
  rw [List.head?_append, hopen] at hc
  cases hc
  decide

theorem Solid.rstrip_ne_nil (h : Solid text) (hne : text ≠ []) : Markdown.rstrip text ≠ [] := by
  obtain ⟨space, hspace, htext⟩ := rstrip_split text
  intro hnil
  rw [hnil, List.nil_append] at htext
  obtain ⟨c, more, rfl⟩ := List.exists_cons_of_ne_nil hne
  have hc := h c rfl
  rw [hspace c (htext ▸ List.mem_cons_self)] at hc
  cases hc

theorem rstrip_append (h : rstrip other ≠ []) : rstrip (text ++ other) = text ++ rstrip other := by
  have hne : (other.reverse.dropWhile isPythonSpace).isEmpty = false := by
    refine List.isEmpty_eq_false_iff.mpr fun hnil => h ?_
    rw [Markdown.rstrip, List.rdropWhile, hnil, List.reverse_nil]
  unfold Markdown.rstrip List.rdropWhile
  rw [List.reverse_append, List.dropWhile_append, hne, if_neg Bool.false_ne_true,
    List.reverse_append, List.reverse_reverse]

theorem trailing_append (h : rstrip other ≠ []) : trailing (text ++ other) = trailing other := by
  have hwhole := rstrip_append_trailing (text ++ other)
  rw [rstrip_append h, List.append_assoc] at hwhole
  exact List.append_cancel_left ((List.append_cancel_left hwhole).trans
    (rstrip_append_trailing other).symm)

theorem length_rstrip_le (text : Text) : (rstrip text).length ≤ text.length := by
  obtain ⟨space, -, htext⟩ := rstrip_split text
  have hlength := congrArg List.length htext
  rw [List.length_append] at hlength
  omega

end CodexServer.Markdown
