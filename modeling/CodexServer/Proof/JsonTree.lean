import CodexServer.JsonTree

/-!
# JSON values are read as they were printed

By induction on the levels: the first character says what kind of value is there, and what follows a
number is no digit. What is read is a value of Python whatever the text is.
-/

open JsonText

namespace CodexServer.JsonTree

variable {value : Json} {items : List Json} {fields : List (String × Json)} {levels bound : Nat}
  {text rest : List Char}

/-- The numbers that are printed. -/
def IsInt (number : ℚ) : Prop := number.den = 1

/-! ### Scalars -/

theorem reads_text : Reads readText printText := by
  intro text rest
  unfold readText printText
  rw [reads_string]
  simp

theorem readWord_printed (word : String) (value : Json) (rest : List Char) :
    readWord word value (word.toList ++ rest) = some (value, rest) := by
  unfold readWord
  rw [if_pos (List.prefix_append _ _), ← String.length_toList, List.drop_left]

/-- The characters a number begins with. -/
def BeginsNumber (c : Char) : Prop := c = '-' ∨ c.isDigit = true

theorem begins_printInt (number : Int) :
    ∃ c text, printInt number = c :: text ∧ BeginsNumber c := by
  cases number with
  | ofNat number =>
      cases hdigits : Nat.toDigits 10 number with
      | nil => exact absurd hdigits Nat.toDigits_ne_nil
      | cons c digits =>
          have hmem : c ∈ Nat.toDigits 10 number := hdigits ▸ List.mem_cons_self
          exact ⟨c, digits, hdigits, .inr (Nat.isDigit_of_mem_toDigits (by omega) le_rfl hmem)⟩
  | negSucc number => exact ⟨'-', _, rfl, .inl rfl⟩

theorem BeginsNumber.ne {c other : Char} (h : BeginsNumber c) (hother : other ≠ '-')
    (hdigit : other.isDigit = false) : c ≠ other := by
  rintro rfl
  rcases h with hminus | hdigit'
  · exact hother hminus
  · rw [hdigit] at hdigit'
    cases hdigit'

theorem readScalar_other {c : Char} (hquote : c ≠ '"') (hn : c ≠ 'n') (ht : c ≠ 't') (hf : c ≠ 'f')
    (text : List Char) : readScalar (c :: text) =
      (readInt (c :: text)).map fun reading => (.number reading.1, reading.2) := by
  unfold readScalar
  rw [List.head?_cons]
  split
  · next hsame => exact absurd (Option.some.inj hsame) hquote
  · next hsame => exact absurd (Option.some.inj hsame) hn
  · next hsame => exact absurd (Option.some.inj hsame) ht
  · next hsame => exact absurd (Option.some.inj hsame) hf
  · rfl

theorem readScalar_number {number : ℚ} (hint : IsInt number) (hrest : EndsDigits rest) :
    readScalar (printInt number.num ++ rest) = some (.number number, rest) := by
  obtain ⟨c, text, hprinted, hbegins⟩ := begins_printInt number.num
  have hread := reads_int number.num rest trivial hrest
  have hnumber : (number.num : ℚ) = number := (Rat.den_eq_one_iff number).mp hint
  rw [hprinted, List.cons_append] at hread ⊢
  rw [readScalar_other (hbegins.ne (by decide) (by decide)) (hbegins.ne (by decide) (by decide))
    (hbegins.ne (by decide) (by decide)) (hbegins.ne (by decide) (by decide)), hread]
  exact congrArg (fun number => some (Json.number number, rest)) hnumber

theorem readScalar_text (text : String) (rest : List Char) :
    readScalar (printText text ++ rest) = some (.string text, rest) := by
  have hread := reads_text text rest
  change (readText (printText text ++ rest)).map _ = _
  rw [hread]
  rfl

theorem readValue_scalar {c : Char} (harray : c ≠ '[') (hobject : c ≠ '{') (levels : Nat)
    (text : List Char) : readValue levels (c :: text) = readScalar (c :: text) := by
  cases levels with
  | zero => rfl
  | succ levels =>
      unfold readValue
      rw [List.head?_cons]
      split
      · next hsame => exact absurd (Option.some.inj hsame) harray
      · next hsame => exact absurd (Option.some.inj hsame) hobject
      · rfl

/-! ### Arrays and objects -/

/-- A value that goes no deeper begins with a character of its own. -/
theorem begins_printValue (h : height value ≤ levels) :
    printValue levels value ≠ [] ∧ (printValue levels value).head? ≠ some ']' := by
  cases value with
  | null =>
      unfold printValue
      decide
  | bool flag =>
      cases flag <;> unfold printValue <;> decide
  | number number =>
      obtain ⟨c, text, hprinted, hbegins⟩ := begins_printInt number.num
      unfold printValue
      rw [hprinted]
      refine ⟨List.cons_ne_nil _ _, fun hsame => ?_⟩
      exact hbegins.ne (by decide) (by decide) (Option.some.inj hsame)
  | string text =>
      unfold printValue
      exact ⟨List.cons_ne_nil _ _, by simp [printText, printString]⟩
  | array items =>
      cases levels with
      | zero => simp [height] at h
      | succ levels =>
          unfold printValue
          exact ⟨List.cons_ne_nil _ _, by simp [printSequence]⟩
  | object fields =>
      cases levels with
      | zero => simp [height] at h
      | succ levels =>
          unfold printValue
          exact ⟨List.cons_ne_nil _ _, by simp [printSequence]⟩

theorem endsDigits_separated {close : Char} (h : close.isDigit = false) :
    Separated close EndsDigits := fun rest =>
  ⟨endsDigits_cons (by decide) rest, endsDigits_cons h rest⟩

/-- The values that are printed in so many levels. -/
def Printable (levels : Nat) (value : Json) : Prop :=
  value.Wellformed IsInt ∧ height value ≤ levels

section

variable {item : Reader Json} (h : ReadsOn (Printable levels) EndsDigits item (printValue levels))

include h

theorem readArray_printed (hitems : ∀ item ∈ items, Printable levels item) :
    readArray item (printSequence '[' ']' (printValue levels) items ++ rest) =
      some (.array items, rest) := by
  have hsequence := h.sequence '[' ']' (endsDigits_separated (by decide)) (by decide)
    fun value hvalue => begins_printValue hvalue.2
  unfold readArray
  rw [hsequence items rest hitems trivial]
  rfl

theorem readObject_printed (hdistinct : (fields.map Prod.fst).Nodup)
    (hfields : ∀ field ∈ fields, Printable levels field.2) :
    readObject item
      (printSequence '{' '}' (printPair printText (printValue levels)) fields ++ rest) =
        some (.object fields, rest) := by
  have hpair := ReadsOn.pair reads_text h
  have hsequence := hpair.sequence '{' '}' (endsDigits_separated (by decide)) (by decide)
    fun field _ => ⟨List.cons_ne_nil _ _, by simp [printPair, printText, printString]⟩
  unfold readObject
  rw [hsequence fields rest hfields trivial]
  simp [hdistinct]

end

/-- What is no array and no object is read with any number of levels. -/
theorem readValue_printed_scalar (hscalar : height value = 0) (hvalue : value.Wellformed IsInt)
    (hrest : EndsDigits rest) (levels more : Nat) :
    readValue more (printValue levels value ++ rest) = some (value, rest) := by
  cases value with
  | null =>
      unfold printValue
      change readValue more ('n' :: ("ull".toList ++ rest)) = _
      rw [readValue_scalar (by decide) (by decide)]
      exact readWord_printed "null" .null rest
  | bool flag =>
      cases flag with
      | true =>
          unfold printValue
          change readValue more ('t' :: ("rue".toList ++ rest)) = _
          rw [readValue_scalar (by decide) (by decide)]
          exact readWord_printed "true" (.bool true) rest
      | false =>
          unfold printValue
          change readValue more ('f' :: ("alse".toList ++ rest)) = _
          rw [readValue_scalar (by decide) (by decide)]
          exact readWord_printed "false" (.bool false) rest
  | number number =>
      cases hvalue with
      | number hint =>
          obtain ⟨c, text, hprinted, hbegins⟩ := begins_printInt number.num
          have hread := readScalar_number hint hrest
          unfold printValue
          rw [hprinted, List.cons_append] at hread ⊢
          rw [readValue_scalar (hbegins.ne (by decide) (by decide))
            (hbegins.ne (by decide) (by decide)), hread]
  | string text =>
      have hread := readScalar_text text rest
      unfold printValue
      change readValue more ('"' :: _) = _
      rw [readValue_scalar (by decide) (by decide)]
      exact hread
  | array items => simp [height] at hscalar
  | object fields => simp [height] at hscalar

/-- **A value is read** as it was printed, with at least as many levels. -/
theorem reads_value {more : Nat} (hmore : levels ≤ more) :
    ReadsOn (Printable levels) EndsDigits (readValue more) (printValue levels) := by
  induction levels generalizing more with
  | zero =>
      rintro value rest ⟨hvalue, hheight⟩ hrest
      exact readValue_printed_scalar (Nat.le_zero.mp hheight) hvalue hrest 0 more
  | succ levels ih =>
      rintro value rest ⟨hvalue, hheight⟩ hrest
      obtain ⟨more, rfl⟩ := Nat.exists_eq_add_of_le' (Nat.le_trans (Nat.le_add_left 1 levels) hmore)
      have hitem := ih (Nat.le_of_succ_le_succ hmore)
      cases hvalue with
      | null => exact readValue_printed_scalar rfl .null hrest _ _
      | bool flag => exact readValue_printed_scalar rfl (.bool flag) hrest _ _
      | number hint => exact readValue_printed_scalar rfl (.number hint) hrest _ _
      | string text => exact readValue_printed_scalar rfl (.string text) hrest _ _
      | array hitems =>
          unfold height at hheight
          have hheights := heightItems_le.mp (Nat.le_of_succ_le_succ hheight)
          unfold printValue
          exact readArray_printed hitem fun item hmem => ⟨hitems item hmem, hheights item hmem⟩
      | object hdistinct hfields =>
          unfold height at hheight
          have hheights := heightFields_le.mp (Nat.le_of_succ_le_succ hheight)
          unfold printValue
          exact readObject_printed hitem hdistinct fun field hmem =>
            ⟨hfields field hmem, hheights field hmem⟩

/-! ### The text of a value -/

/-- The text has a character for each level. -/
theorem height_le_length (h : height value ≤ levels) :
    height value ≤ (printValue levels value).length := by
  induction levels generalizing value with
  | zero =>
      rw [Nat.le_zero.mp h]
      exact Nat.zero_le _
  | succ levels ih =>
      cases value with
      | array items =>
          unfold height at h ⊢
          have hheights := heightItems_le.mp (Nat.le_of_succ_le_succ h)
          have hle : heightItems items ≤
              ([','].intercalate (items.map (printValue levels))).length :=
            heightItems_le.mpr fun item hmem =>
              (ih (hheights item hmem)).trans (length_le_intercalate hmem)
          simp only [printValue, printSequence, List.length_cons, List.length_append]
          omega
      | object fields =>
          unfold height at h ⊢
          have hheights := heightFields_le.mp (Nat.le_of_succ_le_succ h)
          have hle : heightFields fields ≤ ([','].intercalate
              (fields.map (printPair printText (printValue levels)))).length := by
            refine heightFields_le.mpr fun field hmem => ?_
            refine (ih (hheights field hmem)).trans (le_trans ?_ (length_le_intercalate hmem))
            simp only [printPair, List.length_append, List.length_cons]
            omega
          simp only [printValue, printSequence, List.length_cons, List.length_append]
          omega
      | _ => exact Nat.zero_le _

theorem loads_dumps (h : value.Wellformed IsInt) : loads (dumps value) = some value := by
  have hlevels : height value ≤ (dumps value).length := height_le_length le_rfl
  have hread := reads_value hlevels value [] ⟨h, le_rfl⟩ (by rintro c ⟨⟩)
  rw [List.append_nil, ← dumps] at hread
  change (readValue (dumps value).length (dumps value)).bind _ = _
  rw [hread]
  rfl

/-! ### What is read -/

theorem wellformed_readScalar (h : readScalar text = some (value, rest)) :
    value.Wellformed IsInt := by
  have hword (word : String) {known : Json} (hknown : known.Wellformed IsInt)
      (hread : readWord word known text = some (value, rest)) : value.Wellformed IsInt := by
    unfold readWord at hread
    split at hread <;> cases hread
    exact hknown
  unfold readScalar at h
  split at h
  · obtain ⟨reading, -, hreading⟩ := Option.map_eq_some_iff.mp h
    cases hreading
    exact .string _
  · exact hword "null" .null h
  · exact hword "true" (.bool true) h
  · exact hword "false" (.bool false) h
  · obtain ⟨reading, -, hreading⟩ := Option.map_eq_some_iff.mp h
    cases hreading
    exact .number (Rat.den_intCast _)

/-- Whatever the text is, a value of Python is read. -/
theorem wellformed_readValue (h : readValue levels text = some (value, rest)) :
    value.Wellformed IsInt := by
  induction levels generalizing text value rest with
  | zero => exact wellformed_readScalar h
  | succ levels ih =>
      unfold readValue at h
      split at h
      · obtain ⟨reading, hreading, hvalue⟩ := Option.map_eq_some_iff.mp h
        cases hvalue
        exact .array (forall_of_readSequence (fun _ _ _ hitem => ih hitem) hreading)
      · obtain ⟨reading, hreading, hvalue⟩ := Option.map_eq_some_iff.mp h
        obtain ⟨hread, hdistinct⟩ := Option.filter_eq_some_iff.mp hreading
        cases hvalue
        refine .object (of_decide_eq_true hdistinct) (forall_of_readSequence ?_ hread)
        intro text field rest hfield
        obtain ⟨⟨key, later⟩, -, hfield⟩ := Option.bind_eq_some_iff.mp hfield
        dsimp only at hfield
        split at hfield
        · obtain ⟨⟨found, _⟩, hfound, hfield⟩ := Option.bind_eq_some_iff.mp hfield
          cases hfield
          exact ih hfound
        · cases hfield
      · exact wellformed_readScalar h

theorem wellformed_loads (h : loads text = some value) : value.Wellformed IsInt := by
  obtain ⟨⟨found, later⟩, hread, h⟩ := Option.bind_eq_some_iff.mp h
  dsimp only at h
  split at h
  · cases h
    exact wellformed_readValue hread
  · cases h

end CodexServer.JsonTree
