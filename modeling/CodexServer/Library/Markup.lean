import Mathlib.Data.List.Basic
import Mathlib.Data.List.TakeDrop
import Mathlib.Data.List.Infix
import Mathlib.Tactic.Common

/-!
# Markup

A text with tags and character entities. A scanner takes the tags apart from the characters between
them; the elements that are open, and what the characters stand for, are read off its pieces.
-/

namespace Markup

/-! ### Tags and characters -/

inductive Piece
  | char (c : Char)
  | tag (inside : List Char)
deriving DecidableEq

/-- What a scanner makes of a character, with what it has seen of a tag. -/
def advance : Option (List Char) → Char → Option (List Piece × Option (List Char))
  | none, c =>
      if c = '<' then some ([], some []) else if c = '>' then none else some ([.char c], none)
  | some seen, c =>
      if c = '<' then none
      else if c = '>' then some ([.tag seen], none)
      else some ([], some (seen ++ [c]))

/-- The pieces of a text, with what is left of a tag at its end. -/
def scan : Option (List Char) → List Char → Option (List Piece × Option (List Char))
  | seen, [] => some ([], seen)
  | seen, c :: text =>
      (advance seen c).bind fun first =>
        (scan first.2 text).map fun last => (first.1 ++ last.1, last.2)

variable {text other : List Char} {pieces : List Piece} {seen : Option (List Char)}

theorem scan_append (seen : Option (List Char)) (text other : List Char) :
    scan seen (text ++ other) = (scan seen text).bind fun first =>
      (scan first.2 other).map fun last => (first.1 ++ last.1, last.2) := by
  induction text generalizing seen with
  | nil =>
      simp only [List.nil_append, scan, Option.bind_some, List.nil_append]
      exact Option.map_id'.symm
  | cons c text ih =>
      simp only [List.cons_append, scan]
      cases hfirst : advance seen c with
      | none => rfl
      | some first =>
          simp only [Option.bind_some, ih]
          cases hread : scan first.2 text with
          | none => rfl
          | some last =>
              simp only [Option.bind_some, Option.map_some, Option.map_map, Function.comp_def,
                List.append_assoc]

/-- The scanner stands between two tags after the text. -/
def Reads (text : List Char) (pieces : List Piece) : Prop :=
  scan none text = some (pieces, none)

theorem Reads.nil : Reads [] [] := rfl

theorem Reads.append {more : List Piece} (h : Reads text pieces) (hmore : Reads other more) :
    Reads (text ++ other) (pieces ++ more) := by
  unfold Reads at *
  simp [scan_append, h, hmore]

theorem Reads.split {all : List Piece} (h : Reads (text ++ other) all) (htext : Reads text pieces) :
    ∃ more, Reads other more ∧ all = pieces ++ more := by
  unfold Reads at *
  rw [scan_append, htext] at h
  obtain ⟨⟨more, last⟩, hmore, heq⟩ := Option.map_eq_some_iff.mp h
  cases heq
  exact ⟨more, hmore, rfl⟩

theorem Reads.unique {more : List Piece} (h : Reads text pieces) (hmore : Reads text more) :
    pieces = more := by
  cases Option.some.inj (h.symm.trans hmore)
  rfl

/-- A text that is read has been read so far at each of its places. -/
theorem Reads.before (h : Reads (text ++ other) pieces) :
    ∃ first seen, scan none text = some (first, seen) := by
  unfold Reads at h
  rw [scan_append] at h
  cases hread : scan none text with
  | none => simp [hread] at h
  | some first => exact ⟨first.1, first.2, rfl⟩

/-- What stands between two tags. -/
def Bare (text : List Char) : Prop := ∀ c ∈ text, c ≠ '<' ∧ c ≠ '>'

instance Bare.decidable (text : List Char) : Decidable (Bare text) := List.decidableBAll _ text

theorem Bare.append (h : Bare text) (hother : Bare other) : Bare (text ++ other) := by
  intro c hmem
  rcases List.mem_append.mp hmem with hleft | hright
  · exact h c hleft
  · exact hother c hright

theorem bare_singleton {c : Char} (hopen : c ≠ '<') (hclose : c ≠ '>') : Bare [c] := by
  simp [Bare, hopen, hclose]

theorem reads_bare (h : Bare text) : Reads text (text.map .char) := by
  induction text with
  | nil => rfl
  | cons c text ih =>
      obtain ⟨hopen, hclose⟩ := h c List.mem_cons_self
      have hrest : Reads text (text.map .char) := ih fun d hd => h d (List.mem_cons_of_mem c hd)
      unfold Reads at hrest ⊢
      simp [scan, advance, hopen, hclose, hrest]

/-- Inside of a tag everything is put to what has been seen. -/
theorem scan_inside (seen : List Char) (h : Bare text) :
    scan (some seen) text = some ([], some (seen ++ text)) := by
  induction text generalizing seen with
  | nil => simp [scan]
  | cons c text ih =>
      obtain ⟨hopen, hclose⟩ := h c List.mem_cons_self
      have hrest := ih (seen ++ [c]) fun d hd => h d (List.mem_cons_of_mem c hd)
      simp [scan, advance, hopen, hclose, hrest]

theorem reads_tag (h : Bare text) : Reads ('<' :: (text ++ ['>'])) [.tag text] := by
  have hinside := scan_inside [] h
  unfold Reads
  simp [scan, advance, scan_append, hinside]

/-- Bare characters move a scanner out of no tag, and into none. -/
theorem scan_bare_seen (h : Bare other) (hread : scan none text = some (pieces, seen)) :
    ∃ more, scan none (text ++ other) =
      some (pieces ++ more, seen.map fun inside => inside ++ other) := by
  rw [scan_append, hread]
  cases seen with
  | none =>
      have hother : scan none other = some (other.map .char, none) := reads_bare h
      exact ⟨other.map .char, by simp [hother]⟩
  | some inside => exact ⟨[], by simp [scan_inside inside h]⟩

/-- Nothing is left of a tag before the bare characters at the end if nothing is after them. -/
theorem Reads.of_append_bare (h : Reads (text ++ other) pieces) (hother : Bare other) :
    ∃ first, Reads text first ∧ pieces = first ++ other.map .char := by
  obtain ⟨first, seen, hread⟩ := h.before
  cases seen with
  | none => exact ⟨first, hread, (h.unique (Reads.append hread (reads_bare hother)))⟩
  | some inside =>
      obtain ⟨more, hmore⟩ := scan_bare_seen hother hread
      cases Option.some.inj (h.symm.trans hmore)

/-- A tag does not begin inside of another. -/
theorem Reads.of_append_open (h : Reads (text ++ '<' :: other) pieces) :
    ∃ first, Reads text first := by
  obtain ⟨first, seen, hread⟩ := h.before
  cases seen with
  | none => exact ⟨first, hread⟩
  | some inside =>
      unfold Reads at h
      simp [scan_append, hread, scan, advance] at h

/-- A tag among the pieces stands in the text, between what the others are read from. -/
theorem scan_split_tag {first last : List Piece} {inside : List Char} {left : Option (List Char)}
    (hbare : ∀ before, seen = some before → Bare before)
    (h : scan seen text = some (first ++ .tag inside :: last, left)) :
    ∃ before after, (seen.elim [] fun start => '<' :: start) ++ text =
      before ++ '<' :: (inside ++ ['>']) ++ after ∧ Reads before first ∧
        scan none after = some (last, left) := by
  induction text generalizing seen first with
  | nil => simp [scan] at h
  | cons c text ih =>
      obtain ⟨⟨now, next⟩, hnow, hrest⟩ := Option.bind_eq_some_iff.mp h
      obtain ⟨⟨more, stop⟩, hmore, heq⟩ := Option.map_eq_some_iff.mp hrest
      obtain ⟨hpieces, rfl⟩ := Prod.ext_iff.mp heq
      dsimp only at hpieces hmore
      cases seen with
      | none =>
          simp only [advance] at hnow
          split at hnow
          · next hopen =>
              cases hnow
              subst hopen hpieces
              obtain ⟨before, after, htext, hbefore⟩ := ih (by simp [Bare]) hmore
              exact ⟨before, after, by simpa using htext, hbefore⟩
          · next hopen =>
              split at hnow
              · cases hnow
              · next hclose =>
                  cases hnow
                  cases first with
                  | nil => cases hpieces
                  | cons piece first =>
                      obtain ⟨rfl, rfl⟩ := List.cons.inj hpieces
                      obtain ⟨before, after, htext, hbefore, hafter⟩ :=
                        ih (fun _ hnone => by cases hnone) hmore
                      have hchar : Reads [c] [.char c] := reads_bare (bare_singleton hopen hclose)
                      refine ⟨c :: before, after, ?_, hchar.append hbefore, hafter⟩
                      simpa using htext
      | some start =>
          have hstart := hbare start rfl
          simp only [advance] at hnow
          split at hnow
          · cases hnow
          · next hopen =>
              split at hnow
              · next hclose =>
                  cases hnow
                  subst hclose
                  cases first with
                  | nil =>
                      obtain ⟨htag, rfl⟩ := List.cons.inj hpieces
                      cases htag
                      exact ⟨[], text, by simp, .nil, hmore⟩
                  | cons piece first =>
                      obtain ⟨rfl, rfl⟩ := List.cons.inj hpieces
                      obtain ⟨before, after, htext, hbefore, hafter⟩ :=
                        ih (fun _ hnone => by cases hnone) hmore
                      refine ⟨'<' :: (start ++ ['>']) ++ before, after, ?_,
                        (reads_tag hstart).append hbefore, hafter⟩
                      simpa using htext
              · next hclose =>
                  cases hnow
                  subst hpieces
                  have hlonger : Bare (start ++ [c]) :=
                    hstart.append (bare_singleton hopen hclose)
                  obtain ⟨before, after, htext, hbefore⟩ :=
                    ih (fun _ heq => Option.some.inj heq ▸ hlonger) hmore
                  exact ⟨before, after, by simpa using htext, hbefore⟩

theorem Reads.split_tag {first last : List Piece} {inside : List Char}
    (h : Reads text (first ++ .tag inside :: last)) :
    ∃ before after, text = before ++ '<' :: (inside ++ ['>']) ++ after ∧ Reads before first ∧
      Reads after last :=
  scan_split_tag (fun _ hnone => by cases hnone) h

/-! ### Elements -/

/-- How the elements are written. -/
structure Vocabulary (τ : Type) where
  opening : List Char → Option τ
  closing : List Char → Option τ

variable {τ : Type} [DecidableEq τ]

/-- A tag opens an element, or closes the one opened last. -/
def nestStep (vocabulary : Vocabulary τ) (opened : List τ) : Piece → Option (List τ)
  | .char _ => some opened
  | .tag inside =>
      match vocabulary.opening inside with
      | some element => some (element :: opened)
      | none =>
          match opened with
          | [] => none
          | top :: below => if vocabulary.closing inside = some top then some below else none

/-- The elements that are open after the pieces. -/
def nest (vocabulary : Vocabulary τ) (opened : List τ) (pieces : List Piece) : Option (List τ) :=
  pieces.foldlM (nestStep vocabulary) opened

variable {vocabulary : Vocabulary τ} {opened : List τ}

theorem nest_append (first last : List Piece) :
    nest vocabulary opened (first ++ last) =
      (nest vocabulary opened first).bind fun now => nest vocabulary now last :=
  List.foldlM_append

theorem nest_chars : nest vocabulary opened (text.map .char) = some opened := by
  induction text with
  | nil => rfl
  | cons c text ih => simpa [nest, nestStep] using ih

theorem nest_opening {inside : List Char} {element : τ}
    (h : vocabulary.opening inside = some element) :
    nest vocabulary opened [.tag inside] = some (element :: opened) := by
  simp [nest, nestStep, h]

theorem nest_closing {inside : List Char} {element : τ} (hopening : vocabulary.opening inside = none)
    (hclosing : vocabulary.closing inside = some element) :
    nest vocabulary (element :: opened) [.tag inside] = some opened := by
  simp [nest, nestStep, hopening, hclosing]

/-- A tag that does nothing but close leaves what was open before it. -/
theorem nest_closing_inv {inside : List Char} {element : τ} {now : List τ}
    (hopening : vocabulary.opening inside = none)
    (hclosing : vocabulary.closing inside = some element)
    (h : nest vocabulary opened [.tag inside] = some now) : opened = element :: now := by
  simp only [nest, List.foldlM_cons, List.foldlM_nil, nestStep, hopening, hclosing] at h
  cases opened with
  | nil => simp at h
  | cons top opened =>
      by_cases heq : element = top
      · simp only [heq, if_true, Option.bind_eq_bind, Option.bind_some] at h
        cases h
        rw [heq]
      · simp [heq] at h

/-! ### Entities -/

/-- What the characters stand for, given what each entity does; with what is left of an entity. A tag
ends none. -/
def decode (character : List Char → Option Char) :
    Option (List Char) → List Piece → Option (List Char × Option (List Char))
  | seen, [] => some ([], seen)
  | none, .tag _ :: pieces => decode character none pieces
  | none, .char c :: pieces =>
      if c = '&' then decode character (some []) pieces
      else (decode character none pieces).map fun last => (c :: last.1, last.2)
  | some _, .tag _ :: _ => none
  | some seen, .char c :: pieces =>
      if c = ';' then
        (character seen).bind fun meant =>
          (decode character none pieces).map fun last => (meant :: last.1, last.2)
      else if c = '&' then none
      else decode character (some (seen ++ [c])) pieces

variable {character : List Char → Option Char}

theorem decode_append (seen : Option (List Char)) (first last : List Piece) :
    decode character seen (first ++ last) = (decode character seen first).bind fun before =>
      (decode character before.2 last).map fun after => (before.1 ++ after.1, after.2) := by
  induction first generalizing seen with
  | nil =>
      simp only [List.nil_append, decode, Option.bind_some, List.nil_append]
      exact Option.map_id'.symm
  | cons piece first ih =>
      cases seen with
      | none =>
          cases piece with
          | tag inside => simpa only [List.cons_append, decode] using ih none
          | char c =>
              simp only [List.cons_append, decode]
              split
              · exact ih (some [])
              · rw [ih none]
                cases decode character none first with
                | none => rfl
                | some before => simp [Function.comp_def]
      | some seen =>
          cases piece with
          | tag inside => rfl
          | char c =>
              simp only [List.cons_append, decode]
              split
              · cases character seen with
                | none => rfl
                | some meant =>
                    simp only [Option.bind_some]
                    rw [ih none]
                    cases decode character none first with
                    | none => rfl
                    | some before => simp [Function.comp_def]
              · split
                · rfl
                · exact ih (some (seen ++ [c]))

/-- The pieces stand for a text, and no entity is left open. -/
def Shows (character : List Char → Option Char) (pieces : List Piece) (text : List Char) : Prop :=
  decode character none pieces = some (text, none)

theorem Shows.append {first last : List Piece} (h : Shows character first text)
    (hlast : Shows character last other) : Shows character (first ++ last) (text ++ other) := by
  unfold Shows at *
  simp [decode_append, h, hlast]

theorem Shows.split {first last : List Piece} (h : Shows character (first ++ last) text)
    {before : List Char} (hfirst : Shows character first before) :
    ∃ after, Shows character last after ∧ text = before ++ after := by
  unfold Shows at *
  rw [decode_append, hfirst] at h
  obtain ⟨⟨after, seen⟩, hlast, heq⟩ := Option.map_eq_some_iff.mp h
  cases heq
  exact ⟨after, hlast, rfl⟩

theorem shows_tag (inside : List Char) : Shows character [.tag inside] [] := rfl

/-- Characters that begin no entity stand for themselves. -/
theorem shows_chars (h : '&' ∉ text) : Shows character (text.map .char) text := by
  induction text with
  | nil => rfl
  | cons c text ih =>
      have hrest : Shows character (text.map .char) text := ih fun hmem =>
        h (List.mem_cons_of_mem c hmem)
      have hc : c ≠ '&' := fun heq => h (heq ▸ List.mem_cons_self)
      unfold Shows at hrest ⊢
      simp [decode, hc, hrest]

/-- An entity ends before a tag, or a space, or not at all. -/
theorem Shows.of_append_tag {first last : List Piece} {inside : List Char}
    (h : Shows character (first ++ .tag inside :: last) text) :
    ∃ before, Shows character first before := by
  unfold Shows at h
  rw [decode_append] at h
  obtain ⟨⟨before, seen⟩, hfirst, hlast⟩ := Option.bind_eq_some_iff.mp h
  cases seen with
  | none => exact ⟨before, hfirst⟩
  | some seen => simp [decode] at hlast

end Markup
