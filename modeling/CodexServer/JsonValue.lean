import CodexServer.Notification
import CodexServer.Library.Dictionary

/-!
# JSON values as Python holds them

A `dict` has each key once. Which numbers there are depends on what reads them.
-/

namespace CodexServer.Json

open Dictionary (mem_of_lookup)

variable {isNumber : ℚ → Prop} {fields : List (String × Json)} {key : String} {value : Json}

inductive Wellformed (isNumber : ℚ → Prop) : Json → Prop
  | null : Wellformed isNumber .null
  | bool (value : Bool) : Wellformed isNumber (.bool value)
  | number {value : ℚ} : isNumber value → Wellformed isNumber (.number value)
  | string (value : String) : Wellformed isNumber (.string value)
  | array {items : List Json} : (∀ item ∈ items, Wellformed isNumber item) →
      Wellformed isNumber (.array items)
  | object {fields : List (String × Json)} : (fields.map Prod.fst).Nodup →
      (∀ field ∈ fields, Wellformed isNumber field.2) → Wellformed isNumber (.object fields)

theorem Wellformed.nodup (h : (Json.object fields).Wellformed isNumber) :
    (fields.map Prod.fst).Nodup := by
  cases h with
  | object hdistinct _ => exact hdistinct

theorem Wellformed.of_mem (h : (Json.object fields).Wellformed isNumber)
    (hmem : (key, value) ∈ fields) : value.Wellformed isNumber := by
  cases h with
  | object _ hvalues => exact hvalues _ hmem

theorem Wellformed.lookup (h : (Json.object fields).Wellformed isNumber)
    (hvalue : fields.lookup key = some value) : value.Wellformed isNumber :=
  h.of_mem (mem_of_lookup hvalue)

end CodexServer.Json
