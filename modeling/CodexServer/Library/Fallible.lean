import Mathlib.Logic.Basic

/-!
# Computations that may fail

What is computed in several parts is there just if each part is.
-/

variable {ε α β : Type}

namespace Except

/-- The second part starts from the value of the first. -/
theorem bind_eq_ok {first : Except ε α} {rest : α → Except ε β} {result : β} :
    first >>= rest = .ok result ↔ ∃ value, first = .ok value ∧ rest value = .ok result := by
  cases first with
  | error error => exact iff_of_false nofun fun ⟨_, hfirst, _⟩ => nomatch hfirst
  | ok value =>
      constructor
      · intro h
        exact ⟨value, rfl, h⟩
      · rintro ⟨value, ⟨⟩, h⟩
        exact h

end Except
