import CodexServer.Chunking

/-!
# Where a text is cut

`_safe_cut` searches the text from the end and skips what is in a code block. The place it comes to
is told here by what stands in the text: the last separator of the first kind that stands late
enough, or else the last line end that leaves room for the closing tags.
-/

namespace CodexServer.Markdown

variable {text sep : Text} {limit : Nat}

/-! ### Searching -/

theorem rfindFrom_some {index found : Nat} (h : rfindFrom sep index text = some found) :
    index ≤ found ∧ sep <+: text.drop (found - index) := by
  induction text generalizing index with
  | nil => cases h
  | cons c text ih =>
      unfold rfindFrom at h
      cases hlater : rfindFrom sep (index + 1) text with
      | some later =>
          simp only [hlater, Option.some.injEq] at h
          subst h
          obtain ⟨hle, hbegins⟩ := ih hlater
          have hshift : later - index = later - (index + 1) + 1 := by omega
          exact ⟨by omega, by rwa [hshift, List.drop_succ_cons]⟩
      | none =>
          simp only [hlater] at h
          split at h
          · next hfirst =>
              cases h
              exact ⟨le_rfl, by simpa using hfirst⟩
          · cases h

theorem rfindFrom_last {index place : Nat} (hsep : sep ≠ []) (h : sep <+: text.drop place) :
    ∃ found, rfindFrom sep index text = some found ∧ index + place ≤ found := by
  induction text generalizing index place with
  | nil =>
      rw [List.drop_nil] at h
      exact absurd (List.prefix_nil.mp h) hsep
  | cons c text ih =>
      unfold rfindFrom
      cases place with
      | zero =>
          cases hlater : rfindFrom sep (index + 1) text with
          | some later =>
              have hle := (rfindFrom_some hlater).1
              exact ⟨later, rfl, by omega⟩
          | none =>
              rw [List.drop_zero] at h
              exact ⟨index, by simpa using h, le_rfl⟩
      | succ place =>
          obtain ⟨found, hfound, hle⟩ : ∃ found, rfindFrom sep (index + 1) text = some found ∧
              index + 1 + place ≤ found := ih h
          rw [hfound]
          exact ⟨found, rfl, by omega⟩

/-- The separator ends before the place where the search stops. -/
theorem rfind_some {stop found : Nat} (hsep : sep ≠ []) (h : rfind sep text stop = some found) :
    found + sep.length ≤ stop ∧ sep <+: text.drop found := by
  obtain ⟨-, hbegins⟩ := rfindFrom_some h
  rw [Nat.sub_zero, List.drop_take, List.prefix_take_iff] at hbegins
  have hpos := List.length_pos_iff.mpr hsep
  exact ⟨by omega, hbegins.1⟩

/-- What the search finds is the last there is. -/
theorem rfind_last {stop place : Nat} (hsep : sep ≠ []) (h : sep <+: text.drop place)
    (hstop : place + sep.length ≤ stop) :
    ∃ found, rfind sep text stop = some found ∧ place ≤ found := by
  have hwindow : sep <+: (text.take stop).drop place := by
    rw [List.drop_take, List.prefix_take_iff]
    exact ⟨h, by omega⟩
  obtain ⟨found, hfound, hle⟩ : ∃ found, rfindFrom sep 0 (text.take stop) = some found ∧
      0 + place ≤ found := rfindFrom_last hsep hwindow
  exact ⟨found, hfound, by omega⟩

theorem findFrom_some {index found : Nat} (h : findFrom sep index text = some found) :
    index ≤ found ∧ sep <+: text.drop (found - index) ∧
      ∀ i < found - index, ¬sep <+: text.drop i := by
  induction text generalizing index with
  | nil => cases h
  | cons c text ih =>
      unfold findFrom at h
      split at h
      · next hfirst =>
          cases h
          exact ⟨le_rfl, by simpa using hfirst, by simp⟩
      · next hnot =>
          obtain ⟨hle, hbegins, hbefore⟩ := ih h
          have hshift : found - index = found - (index + 1) + 1 := by omega
          refine ⟨by omega, by rwa [hshift, List.drop_succ_cons], fun i hi => ?_⟩
          cases i with
          | zero => simpa using hnot
          | succ i => exact hbefore i (by omega)

theorem findFrom_none {index : Nat} (hsep : sep ≠ []) (h : findFrom sep index text = none)
    (i : Nat) : ¬sep <+: text.drop i := by
  induction text generalizing index i with
  | nil => simpa using hsep
  | cons c text ih =>
      unfold findFrom at h
      split at h
      · cases h
      · next hnot =>
          cases i with
          | zero => simpa using hnot
          | succ i => exact ih h i

theorem find_some {start found : Nat} (h : find sep text start = some found) :
    start ≤ found ∧ sep <+: text.drop found ∧
      ∀ i, start ≤ i → i < found → ¬sep <+: text.drop i := by
  obtain ⟨hle, hbegins, hbefore⟩ := findFrom_some h
  rw [List.drop_drop, Nat.add_sub_cancel' hle] at hbegins
  refine ⟨hle, hbegins, fun i hi hlt => ?_⟩
  have hnot := hbefore (i - start) (by omega)
  rwa [List.drop_drop, Nat.add_sub_cancel' hi] at hnot

theorem find_none {start : Nat} (hsep : sep ≠ []) (h : find sep text start = none) {i : Nat}
    (hi : start ≤ i) : ¬sep <+: text.drop i := by
  have hnot := findFrom_none hsep h (i - start)
  rwa [List.drop_drop, Nat.add_sub_cancel' hi] at hnot

/-! ### Code blocks -/

/-- A code block begins before the place, and has not ended there. -/
def InBlock (text : Text) (place : Nat) : Prop :=
  ∃ start < place, preOpen <+: text.drop start ∧
    ∀ last, start ≤ last → preClose <+: text.drop last → place < last + preClose.length

theorem getElem?_of_isPrefix {place index : Nat} {c : Char} (h : sep <+: text.drop place)
    (hc : sep[index]? = some c) : text[place + index]? = some c := by
  obtain ⟨more, hmore⟩ := h
  rw [← List.getElem?_drop, ← hmore, List.getElem?_append_left, hc]
  exact (List.getElem?_eq_some_iff.mp hc).1

/-- Where two texts meet they have the same character. -/
theorem same_of_isPrefix {other : Text} {place later : Nat} {c d : Char} (h : sep <+: text.drop place)
    (hle : place ≤ later) (hc : sep[later - place]? = some c) (hother : other <+: text.drop later)
    (hd : other[0]? = some d) : c = d := by
  have hleft := getElem?_of_isPrefix h hc
  rw [Nat.add_sub_cancel' hle] at hleft
  exact Option.some.inj (hleft.symm.trans (getElem?_of_isPrefix hother hd))

theorem lt_length_of_isPrefix {place : Nat} (hsep : sep ≠ []) (h : sep <+: text.drop place) :
    place + sep.length ≤ text.length := by
  have hpos := List.length_pos_iff.mpr hsep
  have hlength := h.length_le
  rw [List.length_drop] at hlength
  omega

/-- A tag does not begin in another. -/
theorem tags_apart {tag other : Text} {start last : Nat} (htag : tag <+: text.drop start)
    (hother : other <+: text.drop last) (hle : start ≤ last)
    (honce : ∀ i < tag.length, tag[i]? = some '<' → i = 0) (hopens : other[0]? = some '<')
    (hdiffer : ∃ c d, tag[1]? = some c ∧ other[1]? = some d ∧ c ≠ d) : start + tag.length ≤ last := by
  by_contra hwithin
  have hbound : last - start < tag.length := by omega
  have hc := List.getElem?_eq_getElem hbound
  have hsame := honce (last - start) hbound
    (hc.trans (congrArg some (same_of_isPrefix htag hle hc hother hopens)))
  obtain rfl : last = start := by omega
  obtain ⟨c, d, hsecond, hfirst, hne⟩ := hdiffer
  exact hne (Option.some.inj ((getElem?_of_isPrefix htag hsecond).symm.trans
    (getElem?_of_isPrefix hother hfirst)))

theorem preClose_before {start last : Nat} (hclose : preClose <+: text.drop last)
    (hopen : preOpen <+: text.drop start) (hle : last ≤ start) : last + preClose.length ≤ start :=
  tags_apart hclose hopen hle (by decide) (by decide) ⟨'/', 'p', by decide⟩

theorem preOpen_before {start last : Nat} (hopen : preOpen <+: text.drop start)
    (hclose : preClose <+: text.drop last) (hle : start ≤ last) : start + preOpen.length ≤ last :=
  tags_apart hopen hclose hle (by decide) (by decide) ⟨'p', '/', by decide⟩

/-- The ranges from a position on are the blocks that begin there. -/
theorem inside_preRangesFrom_iff {place fuel pos : Nat} (hfuel : text.length - pos < fuel)
    (hplace : place < text.length) : inside (preRangesFrom text fuel pos) place = true ↔
      ∃ start < place, pos ≤ start ∧ preOpen <+: text.drop start ∧
        ∀ last, start ≤ last → preClose <+: text.drop last → place < last + preClose.length := by
  induction fuel generalizing pos with
  | zero => omega
  | succ fuel ih =>
      unfold preRangesFrom
      cases hopen : find preOpen text pos with
      | none =>
          refine iff_of_false (by simp [inside]) ?_
          rintro ⟨start, -, hpos, hstart, -⟩
          exact find_none (by decide) hopen hpos hstart
      | some first =>
          obtain ⟨hpos, hfirst, hbefore⟩ := find_some hopen
          have hleast {start : Nat} (hstart : pos ≤ start) (hbegins : preOpen <+: text.drop start) :
              first ≤ start := by
            by_contra hlt
            exact hbefore start hstart (by omega) hbegins
          cases hclose : find preClose text first with
          | none =>
              have hrange : inside [(first, text.length)] place = true ↔ first < place := by
                simp [inside, hplace]
              simp only [hclose]
              rw [hrange]
              constructor
              · intro hlt
                exact ⟨first, hlt, hpos, hfirst, fun last hlast hbegins =>
                  absurd hbegins (find_none (by decide) hclose hlast)⟩
              · rintro ⟨start, hlt, hstart, hbegins, -⟩
                exact Nat.lt_of_le_of_lt (hleast hstart hbegins) hlt
          | some close =>
              obtain ⟨hafter, hend, hearlier⟩ := find_some hclose
              have hbound := lt_length_of_isPrefix (by decide) hend
              have hlength : preClose.length = 6 := by decide
              have hrest := @ih (close + preClose.length) (by omega)
              have hsplit : inside ((first, close + preClose.length) ::
                  preRangesFrom text fuel (close + preClose.length)) place = true ↔
                  (first < place ∧ place < close + preClose.length) ∨
                    inside (preRangesFrom text fuel (close + preClose.length)) place = true := by
                simp [inside]
              simp only [hclose]
              rw [hsplit, hrest]
              constructor
              · rintro (⟨hlt, hwithin⟩ | ⟨start, hlt, hstart, hopened⟩)
                · refine ⟨first, hlt, hpos, hfirst, fun last hlast hbegins => ?_⟩
                  have hle : close ≤ last := by
                    by_contra hearly
                    exact hearlier last hlast (by omega) hbegins
                  omega
                · exact ⟨start, hlt, by omega, hopened⟩
              · rintro ⟨start, hlt, hstart, hbegins, hopened⟩
                by_cases hwithin : place < close + preClose.length
                · exact .inl ⟨Nat.lt_of_le_of_lt (hleast hstart hbegins) hlt, hwithin⟩
                · have hclosed : close < start := by
                    by_contra hle
                    exact hwithin (hopened close (by omega) hend)
                  exact .inr ⟨start, hlt, preClose_before hend hbegins hclosed.le, hbegins, hopened⟩

/-- The window that `_safe_cut` looks at is wide enough to tell of every place within the limit
whether it is in a block. -/
theorem inside_preRanges_iff {place : Nat} (hplace : place < text.length) (hlimit : place < limit) :
    inside (preRanges (text.take (limit + preClose.length))) place = true ↔ InBlock text place := by
  have hopens : preOpen.length = 5 := by decide
  have hcloses : preClose.length = 6 := by decide
  unfold preRanges InBlock
  rw [inside_preRangesFrom_iff (by omega) (by rw [List.length_take]; omega)]
  refine exists_congr fun start => and_congr_right fun hlt => ?_
  simp only [Nat.zero_le, true_and, List.drop_take, List.prefix_take_iff]
  refine and_congr ⟨fun h => h.1, fun h => ⟨h, by omega⟩⟩ ?_
  constructor
  · intro h last hlast hbegins
    by_contra hwithin
    exact hwithin (h last hlast ⟨hbegins, by omega⟩)
  · exact fun h last hlast hbegins => h last hlast hbegins.1

/-! ### Separators -/

/-- The separator stands at the place, within the limit and outside of code blocks. -/
structure Stands (sep text : Text) (limit place : Nat) : Prop where
  starts : sep <+: text.drop place
  fits : place + sep.length ≤ limit
  outside : ¬InBlock text place

/-- No block begins in a separator. -/
theorem InBlock.before {place index : Nat} (hspace : ∀ c ∈ sep, isPythonSpace c = true)
    (h : sep <+: text.drop place) (hle : place ≤ index) (hlt : index < place + sep.length)
    (hblock : InBlock text index) : InBlock text place := by
  obtain ⟨start, hstart, hopen, hopened⟩ := hblock
  have hzero : preOpen[0]? = some '<' := by decide
  refine ⟨start, ?_, hopen, fun last hlast hbegins => Nat.lt_of_le_of_lt hle
    (hopened last hlast hbegins)⟩
  by_contra hge
  have hbound : start - place < sep.length := by omega
  have hmem := hspace _ (List.getElem_mem hbound)
  rw [same_of_isPrefix h (Nat.le_of_not_lt hge) (List.getElem?_eq_getElem hbound) hopen hzero] at hmem
  exact absurd hmem (by decide)

theorem outside_some {ranges : List (Nat × Nat)} {fuel found stop : Nat} (hsep : sep ≠ [])
    (h : outside ranges sep text fuel (rfind sep text stop) = some found) :
    found + sep.length ≤ stop ∧ sep <+: text.drop found := by
  induction fuel generalizing stop with
  | zero => exact rfind_some hsep h
  | succ fuel ih =>
      cases hfirst : rfind sep text stop with
      | none =>
          rw [hfirst] at h
          cases h
      | some index =>
          rw [hfirst] at h
          unfold outside at h
          split at h
          · obtain ⟨hle, hbegins⟩ := ih h
            have hfound := (rfind_some hsep hfirst).1
            exact ⟨by omega, hbegins⟩
          · cases h
            exact rfind_some hsep hfirst

/-- With enough turns the loop ends outside of the ranges, or at the start. -/
theorem outside_spec {ranges : List (Nat × Nat)} {fuel found stop : Nat} (hsep : sep ≠ [])
    (hfuel : stop ≤ fuel) (hpos : 0 < found)
    (h : outside ranges sep text fuel (rfind sep text stop) = some found) :
    inside ranges found = false := by
  induction fuel generalizing stop with
  | zero =>
      have hstop := (rfind_some hsep h).1
      omega
  | succ fuel ih =>
      cases hfirst : rfind sep text stop with
      | none =>
          rw [hfirst] at h
          cases h
      | some index =>
          have hindex := (rfind_some hsep hfirst).1
          have hlength := List.length_pos_iff.mpr hsep
          rw [hfirst] at h
          unfold outside at h
          split at h
          · exact ih (by omega) h
          · next hnot =>
              cases h
              simpa [hpos] using hnot

/-- The loop skips no separator that stands outside of the blocks. -/
theorem outside_last {place fuel stop : Nat} (hsep : sep ≠ [])
    (hspace : ∀ c ∈ sep, isPythonSpace c = true) (hstop : stop ≤ limit)
    (hstarts : sep <+: text.drop place) (hfits : place + sep.length ≤ stop)
    (houtside : ¬InBlock text place) :
    ∃ found, outside (preRanges (text.take (limit + preClose.length))) sep text fuel
      (rfind sep text stop) = some found ∧ place ≤ found := by
  induction fuel generalizing stop with
  | zero => exact rfind_last hsep hstarts hfits
  | succ fuel ih =>
      obtain ⟨index, hindex, hle⟩ := rfind_last hsep hstarts hfits
      obtain ⟨hend, hbegins⟩ := rfind_some hsep hindex
      have hlength := List.length_pos_iff.mpr hsep
      rw [hindex]
      unfold outside
      split
      · next hinside =>
          have hblock : InBlock text index := by
            have hbound := lt_length_of_isPrefix hsep hbegins
            exact (inside_preRanges_iff (by omega) (by omega)).mp
              (Bool.and_eq_true_iff.mp hinside).2
          have hapart : place + sep.length ≤ index := by
            by_contra hnear
            exact houtside (hblock.before hspace hstarts hle (by omega))
          exact ih (by omega) hapart
      · exact ⟨index, rfl, hle⟩

/-- After which separator the text parts: the last one of the first kind of which one stands late
enough. -/
inductive PartsAfter (text : Text) (limit : Nat) : List (Text × Nat) → Nat → Prop
  | last {sep : Text} {threshold place : Nat} {seps : List (Text × Nat)} : threshold < place →
      Stands sep text limit place → (∀ later, Stands sep text limit later → later ≤ place) →
      PartsAfter text limit ((sep, threshold) :: seps) (place + sep.length)
  | next {sep : Text} {threshold place : Nat} {seps : List (Text × Nat)} :
      (∀ early, Stands sep text limit early → early ≤ threshold) →
      PartsAfter text limit seps place → PartsAfter text limit ((sep, threshold) :: seps) place

theorem PartsAfter.unique {seps : List (Text × Nat)} {place other : Nat}
    (h : PartsAfter text limit seps place) (hother : PartsAfter text limit seps other) :
    place = other := by
  induction h with
  | last hlate hstands hlast =>
      cases hother with
      | last _ hstands' hlast' =>
          have hle := hlast' _ hstands
          have hge := hlast _ hstands'
          omega
      | next hearly _ =>
          have hle := hearly _ hstands
          omega
  | next hearly _ ih =>
      cases hother with
      | last hlate hstands _ =>
          have hle := hearly _ hstands
          omega
      | next _ hlater => exact ih hlater

/-- The separators are of spaces. -/
def Spaced (seps : List (Text × Nat)) : Prop :=
  ∀ entry ∈ seps, entry.1 ≠ [] ∧ ∀ c ∈ entry.1, isPythonSpace c = true

theorem newline_spaced : ∀ c ∈ "\n".toList, isPythonSpace c = true :=
  List.all_eq_true.mp (by decide)

theorem spaced_separators (limit : Nat) : Spaced (separators limit) := by
  have hall : (["\n\n".toList, "\n".toList, " ".toList].all fun sep =>
      !sep.isEmpty && sep.all isPythonSpace) = true := by
    decide
  intro entry hmem
  have hentry : entry.1 ∈ ["\n\n".toList, "\n".toList, " ".toList] := by
    simpa [separators] using List.mem_map_of_mem (f := Prod.fst) hmem
  obtain ⟨hne, hspaces⟩ := Bool.and_eq_true_iff.mp (List.all_eq_true.mp hall entry.1 hentry)
  exact ⟨by simpa using hne, List.all_eq_true.mp hspaces⟩

/-- The search for the separators comes to where the text parts. -/
theorem separatorCut_iff {seps : List (Text × Nat)} (hseps : Spaced seps) {place : Nat} :
    separatorCut (preRanges (text.take (limit + preClose.length))) text limit seps = some place ↔
      PartsAfter text limit seps place := by
  induction seps with
  | nil => exact iff_of_false nofun nofun
  | cons entry seps ih =>
      obtain ⟨sep, threshold⟩ := entry
      obtain ⟨hsep, hspace⟩ := hseps (sep, threshold) List.mem_cons_self
      have hrest := ih fun entry hmem => hseps entry (List.mem_cons_of_mem _ hmem)
      have hlast {later : Nat} (h : Stands sep text limit later) :
          ∃ found, outside (preRanges (text.take (limit + preClose.length))) sep text limit
            (rfind sep text limit) = some found ∧ later ≤ found :=
        outside_last hsep hspace le_rfl h.starts h.fits h.outside
      unfold separatorCut
      cases hfound : outside (preRanges (text.take (limit + preClose.length))) sep text limit
          (rfind sep text limit) with
      | none =>
          have hnone : ∀ early, Stands sep text limit early → early ≤ threshold := by
            intro early hearly
            obtain ⟨found, hsome, -⟩ := hlast hearly
            cases hfound.symm.trans hsome
          simp only
          rw [hrest]
          constructor
          · exact .next hnone
          · rintro (⟨hlate, hstands, -⟩ | ⟨-, hlater⟩)
            · have hle := hnone _ hstands
              omega
            · exact hlater
      | some index =>
          obtain ⟨hfits, hstarts⟩ := outside_some hsep hfound
          have hmax : ∀ later, Stands sep text limit later → later ≤ index := by
            intro later hlater
            obtain ⟨found, hsome, hle⟩ := hlast hlater
            cases hfound.symm.trans hsome
            exact hle
          simp only
          split
          · next hlate =>
              have hpos := List.length_pos_iff.mpr hsep
              have hbound := lt_length_of_isPrefix hsep hstarts
              have hout : ¬InBlock text index := fun hblock => by
                have hinside := outside_spec hsep le_rfl (Nat.zero_lt_of_lt hlate) hfound
                rw [(inside_preRanges_iff (by omega) (by omega)).mpr hblock] at hinside
                cases hinside
              have hparts : PartsAfter text limit ((sep, threshold) :: seps) (index + sep.length) :=
                .last hlate ⟨hstarts, hfits, hout⟩ hmax
              rw [Option.some.injEq]
              exact ⟨fun heq => heq ▸ hparts, fun h => hparts.unique h⟩
          · next hearly =>
              have hall : ∀ early, Stands sep text limit early → early ≤ threshold :=
                fun early h => (hmax early h).trans (Nat.le_of_not_lt hearly)
              rw [hrest]
              constructor
              · exact .next hall
              · rintro (⟨hlate, hstands, -⟩ | ⟨-, hlater⟩)
                · have hle := hall _ hstands
                  omega
                · exact hlater

/-! ### The cut -/

/-- A line ends at the place and leaves room for the tags that close a block. -/
structure EndsLine (text : Text) (limit place : Nat) : Prop where
  starts : "\n".toList <+: text.drop place
  fits : place + 1 ≤ limit - codeClose.length

/-- Where a text that is too long is cut, and whether by force. -/
inductive CutAt (text : Text) (limit : Nat) : Nat → Bool → Prop
  | separator {place : Nat} : PartsAfter text limit (separators limit) place →
      CutAt text limit place false
  | line {line : Nat} : (∀ place, ¬PartsAfter text limit (separators limit) place) → 0 < line →
      EndsLine text limit line → (∀ later, EndsLine text limit later → later ≤ line) →
      CutAt text limit (line + 1) true
  | room : (∀ place, ¬PartsAfter text limit (separators limit) place) →
      (∀ line, EndsLine text limit line → line = 0) →
      CutAt text limit (limit - codeClose.length) true

/-- `_safe_cut` cuts there. -/
theorem cutAt_safeCut (text : Text) (limit : Nat) :
    CutAt text limit (safeCut text limit).1 (safeCut text limit).2 := by
  have hnewline : "\n".toList ≠ [] := by decide
  unfold safeCut
  dsimp only
  cases hcut : separatorCut (preRanges (text.take (limit + preClose.length))) text limit
      (separators limit) with
  | some cut => exact .separator ((separatorCut_iff (spaced_separators limit)).mp hcut)
  | none =>
      have hnone : ∀ place, ¬PartsAfter text limit (separators limit) place := by
        intro place hplace
        cases hcut.symm.trans ((separatorCut_iff (spaced_separators limit)).mpr hplace)
      have hlast {later : Nat} (h : EndsLine text limit later) :=
        rfind_last hnewline h.starts h.fits
      cases hline : rfind "\n".toList text (limit - codeClose.length) with
      | none =>
          refine .room hnone fun line h => ?_
          obtain ⟨found, hfound, -⟩ := hlast h
          cases hline.symm.trans hfound
      | some line =>
          have hmax : ∀ later, EndsLine text limit later → later ≤ line := by
            intro later h
            obtain ⟨found, hfound, hle⟩ := hlast h
            cases hline.symm.trans hfound
            exact hle
          obtain ⟨hfits, hstarts⟩ := rfind_some hnewline hline
          by_cases hpos : 0 < line
          · simp only [hpos, if_true]
            exact .line hnone hpos ⟨hstarts, hfits⟩ hmax
          · simp only [hpos, if_false]
            refine .room hnone fun later h => ?_
            have hle := hmax later h
            omega

theorem CutAt.unique {place other : Nat} {forced forced' : Bool}
    (h : CutAt text limit place forced) (hother : CutAt text limit other forced') :
    place = other ∧ forced = forced' := by
  cases h with
  | separator hparts =>
      cases hother with
      | separator hparts' => exact ⟨hparts.unique hparts', rfl⟩
      | line hnone => exact absurd hparts (hnone _)
      | room hnone => exact absurd hparts (hnone _)
  | line hnone hpos hends hlast =>
      cases hother with
      | separator hparts => exact absurd hparts (hnone _)
      | line _ _ hends' hlast' =>
          have hle := hlast' _ hends
          have hge := hlast _ hends'
          exact ⟨by omega, rfl⟩
      | room _ hzero =>
          have hline := hzero _ hends
          omega
  | room hnone hzero =>
      cases hother with
      | separator hparts => exact absurd hparts (hnone _)
      | line _ hpos hends _ =>
          have hline := hzero _ hends
          omega
      | room => exact ⟨rfl, rfl⟩

theorem cutAt_iff {place : Nat} {forced : Bool} :
    CutAt text limit place forced ↔ safeCut text limit = (place, forced) := by
  constructor
  · intro h
    obtain ⟨hplace, hforced⟩ := (cutAt_safeCut text limit).unique h
    exact Prod.ext hplace hforced
  · intro h
    have hcut := cutAt_safeCut text limit
    rwa [h] at hcut

end CodexServer.Markdown
