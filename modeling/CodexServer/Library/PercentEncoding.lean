import Mathlib.Data.List.Basic
import CodexServer.Library.Hexadecimal

/-!
# Percent encoding

The bytes of a text in UTF-8, where every byte but the unreserved ones is written as a percent sign
and two hexadecimal digits. Decoding takes the bytes back.
-/

open Hexadecimal

namespace PercentEncoding

/-- A letter, a digit or one of `_.-~`. -/
def isUnreserved (c : Char) : Bool :=
  c.isAlphanum || c = '_' || c = '.' || c = '-' || c = '~'

def quoteByte (byte : UInt8) : List Char :=
  if isUnreserved (.ofNat byte.toNat) then [.ofNat byte.toNat]
  else ['%', hexDigit .capital (byte.toNat / 16), hexDigit .capital (byte.toNat % 16)]

def utf8 (text : List Char) : List UInt8 := text.flatMap String.utf8EncodeChar

def quote (text : List Char) : List Char := (utf8 text).flatMap quoteByte

/-- A percent sign without two digits after it stands for itself. -/
def unquoteBytes : List Char → List UInt8
  | '%' :: high :: low :: rest =>
      match hexValue high, hexValue low with
      | some high, some low => .ofNat (16 * high + low) :: unquoteBytes rest
      | _, _ => utf8 ['%'] ++ unquoteBytes (high :: low :: rest)
  | c :: rest => String.utf8EncodeChar c ++ unquoteBytes rest
  | [] => []

def unquote (text : List Char) : Option (List Char) :=
  (unquoteBytes text).toByteArray.utf8Decode?.map Array.toList

/-! ### Round trip -/

theorem hexDigit_unreserved : ∀ digit < 16, isUnreserved (hexDigit .capital digit) = true := by
  decide

/-- An unreserved character is a byte of its own. -/
theorem utf8EncodeChar_ofNat : ∀ byte < 128,
    String.utf8EncodeChar (.ofNat byte) = [.ofNat byte] := by decide

theorem unreserved_lt : ∀ byte < 256, isUnreserved (.ofNat byte) = true → byte < 128 := by
  decide +kernel

theorem unquoteBytes_cons {c : Char} (hne : c ≠ '%') (rest : List Char) :
    unquoteBytes (c :: rest) = String.utf8EncodeChar c ++ unquoteBytes rest := by
  rw [unquoteBytes]
  intro high low rest' hsame
  exact absurd hsame hne

theorem unquoteBytes_quoteByte (byte : UInt8) (rest : List Char) :
    unquoteBytes (quoteByte byte ++ rest) = byte :: unquoteBytes rest := by
  have hbyte : byte.toNat < 256 := byte.toNat_lt
  unfold quoteByte
  split
  · rename_i hunreserved
    have hsmall := unreserved_lt byte.toNat hbyte hunreserved
    have hne : Char.ofNat byte.toNat ≠ '%' := by
      intro hsame
      rw [hsame] at hunreserved
      exact absurd hunreserved (by decide)
    rw [List.singleton_append, unquoteBytes_cons hne, utf8EncodeChar_ofNat _ hsmall,
      UInt8.ofNat_toNat, List.singleton_append]
  · have hhigh := hexValue_hexDigit .capital (byte.toNat / 16) (by omega)
    have hlow := hexValue_hexDigit .capital (byte.toNat % 16) (by omega)
    simp only [List.cons_append, List.nil_append, unquoteBytes, hhigh, hlow]
    rw [Nat.div_add_mod, UInt8.ofNat_toNat]

theorem unquoteBytes_quote (bytes : List UInt8) :
    unquoteBytes (bytes.flatMap quoteByte) = bytes := by
  induction bytes with
  | nil => rfl
  | cons byte bytes ih => rw [List.flatMap_cons, unquoteBytes_quoteByte, ih]

/-- **Round trip.** -/
theorem unquote_quote (text : List Char) : unquote (quote text) = some text := by
  have hbytes : (utf8 text).toByteArray = text.utf8Encode := rfl
  unfold unquote quote
  rw [unquoteBytes_quote, hbytes, List.utf8Decode?_utf8Encode]
  rfl

/-- What is quoted has unreserved characters and percent signs only. -/
theorem quote_chars {text : List Char} {c : Char} (hmem : c ∈ quote text) :
    c = '%' ∨ isUnreserved c = true := by
  obtain ⟨byte, -, hbyte⟩ := List.mem_flatMap.mp hmem
  have hlt : byte.toNat < 256 := byte.toNat_lt
  unfold quoteByte at hbyte
  split at hbyte
  · rename_i hunreserved
    obtain rfl := List.mem_singleton.mp hbyte
    exact .inr hunreserved
  · simp only [List.mem_cons, List.not_mem_nil, or_false] at hbyte
    obtain rfl | rfl | rfl := hbyte
    · exact .inl rfl
    · exact .inr (hexDigit_unreserved _ (by omega))
    · exact .inr (hexDigit_unreserved _ (by omega))

end PercentEncoding
