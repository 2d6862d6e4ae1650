import CodexServer.Redaction
import CodexServer.Library.Splitting

/-!
# What the redaction is good for

A text leaks if one of its tokens has the marker, so a space keeps its two sides apart. What comes out
of `redact_for_user` does not leak, whatever went in.
-/

namespace CodexServer

variable {text : String} {chars first last : List Char} {c : Char}

theorem leaks_append_space (hspace : isPythonSpace c = true) (first last : List Char) :
    Leaks (String.ofList (first ++ c :: last)) ↔
      Leaks (String.ofList first) ∨ Leaks (String.ofList last) := by
  simp only [Leaks, String.toList_ofList, List.splitOnP_append_cons _ _ hspace, List.mem_append,
    or_and_right, exists_or]

/-- A text between two of which there is a space. -/
theorem leaks_append (first last : String) :
    Leaks (first ++ " " ++ last) ↔ Leaks first ∨ Leaks last := by
  have h := leaks_append_space (c := ' ') (by decide) first.toList last.toList
  rw [String.ofList_toList, String.ofList_toList] at h
  rw [← h]
  refine iff_of_eq (congrArg Leaks (String.toList_inj.mp ?_))
  simp

/-- A token is a piece of the text, and one at the beginning is a prefix. -/
theorem splitOnP_infix (p : Char → Bool) (chars : List Char) :
    ∃ token rest, chars.splitOnP p = token :: rest ∧ token <+: chars ∧
      ∀ other ∈ rest, other <:+: chars := by
  induction chars with
  | nil => exact ⟨[], [], rfl, List.nil_prefix, nofun⟩
  | cons c chars ih =>
      obtain ⟨token, rest, hsplit, htoken, hrest⟩ := ih
      rw [List.splitOnP_cons_eq_if_modifyHead, hsplit]
      by_cases hp : p c = true
      · rw [if_pos hp]
        refine ⟨[], token :: rest, rfl, List.nil_prefix, fun other hother => ?_⟩
        rcases List.mem_cons.mp hother with rfl | hlater
        · exact htoken.isInfix.trans (List.suffix_cons c chars).isInfix
        · exact (hrest other hlater).trans (List.suffix_cons c chars).isInfix
      · rw [if_neg hp]
        refine ⟨c :: token, rest, rfl, ?_, fun other hother => ?_⟩
        · exact List.cons_prefix_cons.mpr ⟨rfl, htoken⟩
        · exact (hrest other hother).trans (List.suffix_cons c chars).isInfix

/-- A text without the marker does not leak. -/
theorem not_leaks_of_containsMarker (h : containsMarker text.toList = false) : ¬ Leaks text := by
  rintro ⟨token, hmem, hmarker⟩
  obtain ⟨first, rest, hsplit, hfirst, hrest⟩ := splitOnP_infix isPythonSpace text.toList
  rw [hsplit] at hmem
  have hinfix : token <:+: text.toList := by
    rcases List.mem_cons.mp hmem with rfl | hlater
    · exact hfirst.isInfix
    · exact hrest token hlater
  have hfound := (of_decide_eq_true hmarker : presignedMarker.toList <:+: token).trans hinfix
  exact absurd (decide_eq_true hfound) (Bool.eq_false_iff.mp h)

theorem containsMarker_cons (hc : c ≠ 'X') :
    containsMarker (c :: chars) = containsMarker chars := by
  unfold containsMarker
  refine decide_eq_decide.mpr ⟨fun hinfix => ?_, fun hinfix => hinfix.trans ?_⟩
  · rcases List.infix_cons_iff.mp hinfix with hprefixed | hlater
    · exact absurd (List.cons_prefix_cons.mp hprefixed).1.symm hc
    · exact hlater
  · exact (List.suffix_cons c chars).isInfix

/-- A character that the marker does not begin with changes nothing. -/
theorem leaks_cons (hc : c ≠ 'X') :
    Leaks (String.ofList (c :: chars)) ↔ Leaks (String.ofList chars) := by
  obtain ⟨token, rest, hsplit⟩ :=
    List.exists_cons_of_ne_nil (List.splitOnP_ne_nil isPythonSpace chars)
  have hempty : ¬ containsMarker [] = true := by decide
  simp only [Leaks, String.toList_ofList, List.splitOnP_cons_eq_if_modifyHead, hsplit]
  split
  · simp [hempty]
  · simp [containsMarker_cons hc]

/-- What the code puts before a text makes no difference. -/
theorem leaks_append_left (first : String) (hfirst : 'X' ∉ first.toList) (last : String) :
    Leaks (first ++ last) ↔ Leaks last := by
  have hchars : ∀ chars : List Char, 'X' ∉ chars →
      (Leaks (String.ofList (chars ++ last.toList)) ↔ Leaks last) := by
    intro chars
    induction chars with
    | nil => simp
    | cons c chars ih =>
        intro hnot
        obtain ⟨hc, hrest⟩ := List.ne_and_not_mem_of_not_mem_cons hnot
        rw [List.cons_append, leaks_cons (Ne.symm hc), ih hrest]
  rw [← hchars first.toList hfirst, String.ofList_append, String.ofList_toList, String.ofList_toList]

theorem not_leaks_of_not_mem (h : 'X' ∉ text.toList) : ¬ Leaks text := by
  have hnothing : ¬ Leaks "" := by decide
  rw [← String.append_empty (s := text), leaks_append_left text h]
  exact hnothing

theorem not_mem_toString (n : Nat) : 'X' ∉ (toString n).toList := by
  have hdigits : 'X' ∉ Nat.toDigits 10 n := fun hmem =>
    absurd (Nat.isDigit_of_mem_toDigits (by decide) (by decide) hmem) (by decide)
  simpa using hdigits

/-- A text leaks that is put together with spaces only if one of its parts does. -/
theorem leaks_intercalate {parts : List String} (h : Leaks (" ".intercalate parts)) :
    ∃ part ∈ parts, Leaks part := by
  induction parts with
  | nil => exact absurd h (by decide)
  | cons part parts ih =>
      cases parts with
      | nil => exact ⟨part, List.mem_cons_self, by simpa using h⟩
      | cons other parts =>
          rw [String.intercalate_cons_cons, leaks_append] at h
          rcases h with hpart | hlater
          · exact ⟨part, List.mem_cons_self, hpart⟩
          · obtain ⟨found, hmem, hleaks⟩ := ih hlater
            exact ⟨found, List.mem_cons_of_mem _ hmem, hleaks⟩

/-- **`redact_for_user`** leaves no token with the marker. -/
theorem redactForUser_redacted (text : String) : ¬ Leaks (redactForUser text) := by
  unfold redactForUser
  split
  · intro hleaks
    obtain ⟨part, hmem, hpart⟩ := leaks_intercalate hleaks
    obtain ⟨token, htoken, rfl⟩ := List.mem_map.mp hmem
    have hsplit := List.splitOnP_eq_singleton
      (List.not_of_mem_splitOnP (List.mem_of_mem_filter htoken))
    revert hpart
    split
    · decide
    · next hclean =>
        rintro ⟨piece, hpiece, hmarker⟩
        rw [String.toList_ofList, hsplit, List.mem_singleton] at hpiece
        exact hclean (hpiece ▸ hmarker)
  · next hclean => exact not_leaks_of_containsMarker (by simpa using hclean)

theorem leaks_empty : ¬ Leaks "" := by decide

theorem redacted_errorEvent {code detail : String} (hcode : ¬ Leaks code) (hdetail : ¬ Leaks detail) :
    (errorEvent code (some detail)).Redacted := by
  intro text htext
  rcases List.mem_cons.mp htext with rfl | hlater
  · exact hcode
  · exact List.mem_singleton.mp hlater ▸ hdetail

/-- A frame that says nothing about errors. -/
theorem redacted_of_silent {event : ChatEvent} (h : event.errorTexts = []) : event.Redacted := by
  intro text htext
  rw [h] at htext
  cases htext

/-- Every frame that is made from an event of the translator is redacted. -/
theorem chatEventToPb_redacted {event : CodexEvent} (h : event.coded = true) :
    (chatEventToPb event).Redacted := by
  intro text htext
  cases event with
  | token | toolCall | done => cases htext
  | toolResult name body attachments error =>
      cases error with
      | none => cases htext
      | some error =>
          obtain rfl := List.mem_singleton.mp htext
          exact redactForUser_redacted error.message
  | error code detail =>
      obtain rfl : code = CodexErrorCode.codexError := of_decide_eq_true h
      rcases List.mem_cons.mp htext with rfl | hlater
      · decide
      · cases detail with
        | none => cases hlater
        | some detail =>
            obtain rfl := List.mem_singleton.mp hlater
            dsimp only
            split
            · next hempty => exact hempty ▸ leaks_empty
            · exact redactForUser_redacted detail

end CodexServer
