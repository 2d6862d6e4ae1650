import Mathlib.Data.List.Basic
import Mathlib.Data.List.TakeWhile

/-!
# Pieces of a list between separators
-/

namespace List

variable {α : Type}

/-- A piece has no separator. -/
theorem not_of_mem_splitOnP {p : α → Bool} {items piece : List α} (h : piece ∈ items.splitOnP p) :
    ∀ item ∈ piece, p item = false := by
  induction items generalizing piece with
  | nil =>
      obtain rfl : piece = [] := by simpa using h
      exact nofun
  | cons item items ih =>
      rw [splitOnP_cons_eq_if_modifyHead] at h
      split at h
      · rcases mem_cons.mp h with rfl | hlater
        · exact nofun
        · exact ih hlater
      · next hkept =>
          obtain ⟨first, rest, hsplit⟩ := exists_cons_of_ne_nil (splitOnP_ne_nil p items)
          rw [hsplit] at h ih
          rcases mem_cons.mp h with rfl | hlater
          · intro other hother
            rcases mem_cons.mp hother with rfl | hother
            · simpa using hkept
            · exact ih mem_cons_self other hother
          · exact ih (mem_cons_of_mem _ hlater)

/-- What comes after the last separator. -/
theorem eq_of_append_cons_eq [DecidableEq α] {separator : α} {first first' last last' : List α}
    (h : first ++ separator :: last = first' ++ separator :: last') (hlast : separator ∉ last)
    (hlast' : separator ∉ last') : last = last' := by
  have htake : ∀ {front back : List α}, separator ∉ back →
      (front ++ separator :: back).reverse.takeWhile (fun item => decide (item ≠ separator)) =
        back.reverse := by
    intro front back hback
    rw [reverse_append, reverse_cons, append_assoc, takeWhile_append_of_pos]
    · simp
    · intro item hitem
      have hne : item ≠ separator := fun hsame => hback (hsame ▸ mem_reverse.mp hitem)
      simpa using hne
  exact reverse_injective ((htake hlast).symm.trans ((congrArg _ (congrArg reverse h)).trans
    (htake hlast')))

/-- What comes before the first separator is dropped. -/
theorem dropWhile_append_cons [DecidableEq α] {separator : α} {first last : List α}
    (hfirst : separator ∉ first) :
    (first ++ separator :: last).dropWhile (fun item => decide (item ≠ separator)) =
      separator :: last := by
  rw [dropWhile_append_of_pos]
  · simp
  · intro item hitem
    have hne : item ≠ separator := fun hsame => hfirst (hsame ▸ hitem)
    simpa using hne

theorem takeWhile_append_cons [DecidableEq α] {separator : α} {first last : List α}
    (hfirst : separator ∉ first) :
    (first ++ separator :: last).takeWhile (fun item => decide (item ≠ separator)) = first := by
  rw [takeWhile_append_of_pos]
  · simp
  · intro item hitem
    have hne : item ≠ separator := fun hsame => hfirst (hsame ▸ hitem)
    simpa using hne

end List
