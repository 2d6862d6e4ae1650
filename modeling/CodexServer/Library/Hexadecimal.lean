import Mathlib.Data.List.Basic

/-!
# Hexadecimal digits

A number under sixteen is written as one digit, with small or with capital letters, and read with
either.
-/

namespace Hexadecimal

inductive Letters
  | small
  | capital

def Letters.digits : Letters → List Char
  | .small => "0123456789abcdef".toList
  | .capital => "0123456789ABCDEF".toList

def hexDigit (letters : Letters) (value : Nat) : Char := letters.digits.getD value '0'

def hexValue (c : Char) : Option Nat :=
  if c.isDigit then some (c.toNat - 48)
  else if 'a' ≤ c ∧ c ≤ 'f' then some (c.toNat - 87)
  else if 'A' ≤ c ∧ c ≤ 'F' then some (c.toNat - 55)
  else none

theorem hexValue_hexDigit (letters : Letters) :
    ∀ value < 16, hexValue (hexDigit letters value) = some value := by
  cases letters <;> decide

end Hexadecimal
