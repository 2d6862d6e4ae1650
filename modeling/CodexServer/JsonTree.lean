import CodexServer.JsonValue
import CodexServer.Library.JsonText

/-!
# JSON values as text

A printer of JSON values and its reader, for values whose numbers are integers. Both go down as many
levels as they are told.
-/

namespace CodexServer.JsonTree

open JsonText

mutual

/-- The levels of arrays and objects. -/
def height : Json → Nat
  | .array items => heightItems items + 1
  | .object fields => heightFields fields + 1
  | _ => 0

def heightItems : List Json → Nat
  | [] => 0
  | item :: items => max (height item) (heightItems items)

def heightFields : List (String × Json) → Nat
  | [] => 0
  | (_, value) :: fields => max (height value) (heightFields fields)

end

/-! ### Printing -/

def printText (text : String) : List Char := printString text.toList

def printValue : Nat → Json → List Char
  | _, .null => "null".toList
  | _, .bool true => "true".toList
  | _, .bool false => "false".toList
  | _, .number value => printInt value.num
  | _, .string text => printText text
  | 0, .array _ | 0, .object _ => []
  | levels + 1, .array items => printSequence '[' ']' (printValue levels) items
  | levels + 1, .object fields =>
      printSequence '{' '}' (printPair printText (printValue levels)) fields

/-! ### Reading -/

def readText : Reader String := fun text =>
  (readString text).map fun reading => (String.ofList reading.1, reading.2)

def readWord (word : String) (value : Json) : Reader Json := fun text =>
  if word.toList <+: text then some (value, text.drop word.length) else none

/-- What is no array and no object. -/
def readScalar : Reader Json := fun text =>
  match text.head? with
  | some '"' => (readText text).map fun reading => (.string reading.1, reading.2)
  | some 'n' => readWord "null" .null text
  | some 't' => readWord "true" (.bool true) text
  | some 'f' => readWord "false" (.bool false) text
  | _ => (readInt text).map fun reading => (.number reading.1, reading.2)

def readArray (item : Reader Json) : Reader Json := fun text =>
  (readSequence '[' ']' item text).map fun reading => (.array reading.1, reading.2)

/-- An object, which has each key once. -/
def readObject (item : Reader Json) : Reader Json := fun text =>
  ((readSequence '{' '}' (readPair readText item) text).filter fun reading =>
    decide (reading.1.map Prod.fst).Nodup).map fun reading => (.object reading.1, reading.2)

def readValue : Nat → Reader Json
  | 0 => readScalar
  | levels + 1 => fun text =>
      match text.head? with
      | some '[' => readArray (readValue levels) text
      | some '{' => readObject (readValue levels) text
      | _ => readScalar text

/-- The text of a value. -/
def dumps (value : Json) : List Char := printValue (height value) value

/-- The value of a text; there are no more levels than characters. -/
def loads (text : List Char) : Option Json := do
  let (value, rest) ← readValue text.length text
  if rest = [] then some value else none

/-! ### What is printed -/

variable {value : Json} {items : List Json} {fields : List (String × Json)} {levels bound : Nat}

theorem heightItems_le : heightItems items ≤ bound ↔ ∀ item ∈ items, height item ≤ bound := by
  induction items with
  | nil => simp [heightItems]
  | cons item items ih => simp [heightItems, ih]

theorem heightFields_le : heightFields fields ≤ bound ↔
    ∀ field ∈ fields, height field.2 ≤ bound := by
  induction fields with
  | nil => simp [heightFields]
  | cons field fields ih => simp [heightFields, ih]

end CodexServer.JsonTree
