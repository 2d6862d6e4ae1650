import Mathlib.Data.List.Forall2
import Mathlib.Data.List.Nodup

/-!
# Dictionaries

A dictionary is the list of its entries, whose keys are distinct. Two dictionaries with the same
keys are compared entry by entry; a function of the entries leaves the keys as they are.
-/

namespace Dictionary

variable {Key Value : Type} {relation other : Key → Value → Value → Prop}
  {f g : Key → Value → Value} {entries others : List (Key × Value)}

/-- The same keys in the same order, with related values. -/
def Related (relation : Key → Value → Value → Prop) (entries others : List (Key × Value)) : Prop :=
  List.Forall₂ (fun one two => one.1 = two.1 ∧ relation one.1 one.2 two.2) entries others

def mapValues (f : Key → Value → Value) (entries : List (Key × Value)) : List (Key × Value) :=
  entries.map fun entry => (entry.1, f entry.1 entry.2)

/-- The value of one key is replaced, where there is one. -/
def update [DecidableEq Key] (key : Key) (change : Value → Value) : List (Key × Value) →
    List (Key × Value) :=
  mapValues fun name value => if name = key then change value else value

theorem Related.imp (himp : ∀ key value value', relation key value value' → other key value value')
    (h : Related relation entries others) : Related other entries others :=
  List.Forall₂.imp (fun _ _ hentry => ⟨hentry.1, himp _ _ _ hentry.2⟩) h

theorem mapValues_mapValues : mapValues g (mapValues f entries) =
    mapValues (fun key value => g key (f key value)) entries := List.map_map

/-- Two dictionaries become the same if their entries do. -/
theorem mapValues_eq_iff : mapValues f entries = mapValues f others ↔
    Related (fun key value value' => f key value = f key value') entries others := by
  induction entries generalizing others with
  | nil => cases others <;> simp [mapValues, Related]
  | cons entry entries ih =>
      cases others with
      | nil => simp [mapValues, Related]
      | cons two others =>
          have hrest := @ih others
          unfold mapValues Related at hrest ⊢
          rw [List.map_cons, List.map_cons, List.cons.injEq, Prod.mk.injEq, List.forall₂_cons,
            hrest]
          refine and_congr_left fun _ => and_congr_right fun hkey => ?_
          rw [hkey]

section

variable [DecidableEq Key] {key : Key}

theorem Related.lookup (h : Related relation entries others) (key : Key) :
    (entries.lookup key = none ∧ others.lookup key = none) ∨
      ∃ value value', entries.lookup key = some value ∧ others.lookup key = some value' ∧
        relation key value value' := by
  induction h with
  | nil => exact .inl ⟨rfl, rfl⟩
  | @cons one two entries others hentry _ ih =>
      obtain ⟨name, value⟩ := one
      obtain ⟨name', value'⟩ := two
      obtain ⟨hname, hvalue⟩ := hentry
      dsimp only at hname hvalue
      subst hname
      by_cases hkey : key = name
      · subst hkey
        exact .inr ⟨value, value', List.lookup_cons_self, List.lookup_cons_self, hvalue⟩
      · rw [List.lookup_cons, List.lookup_cons, beq_eq_false_iff_ne.mpr hkey]
        exact ih

/-- What is found under one key is related. -/
theorem Related.of_lookup (h : Related relation entries others) {value value' : Value}
    (hvalue : entries.lookup key = some value) (hvalue' : others.lookup key = some value') :
    relation key value value' := by
  rcases h.lookup key with ⟨hnone, -⟩ | ⟨found, found', hfound, hfound', hrelated⟩
  · rw [hvalue] at hnone
    cases hnone
  · rw [hvalue] at hfound
    rw [hvalue'] at hfound'
    cases hfound
    cases hfound'
    exact hrelated

theorem mem_of_lookup {value : Value} (h : entries.lookup key = some value) :
    (key, value) ∈ entries := by
  obtain ⟨before, after, hsplit, -⟩ := List.lookup_eq_some_iff.mp h
  rw [hsplit]
  simp

/-- What relates the entries relates what is found under each key. -/
theorem Related.iff_lookup (h : Related relation entries others)
    (hdistinct : (entries.map Prod.fst).Nodup) : Related other entries others ↔
      ∀ key value value', entries.lookup key = some value → others.lookup key = some value' →
        other key value value' := by
  constructor
  · intro hother key value value' hvalue hvalue'
    exact hother.of_lookup hvalue hvalue'
  · intro hother
    induction h with
    | nil => exact .nil
    | @cons one two entries others hentry hrest ih =>
        obtain ⟨name, value⟩ := one
        obtain ⟨name', value'⟩ := two
        obtain ⟨hname, -⟩ := hentry
        dsimp only at hname
        subst hname
        obtain ⟨hfresh, hlater⟩ := List.nodup_cons.mp hdistinct
        refine .cons ⟨rfl, hother name value value' List.lookup_cons_self List.lookup_cons_self⟩
          (ih hlater fun key found found' hfound hfound' => ?_)
        have hne : key ≠ name := fun hsame =>
          hfresh (List.mem_map.mpr ⟨_, mem_of_lookup hfound, hsame⟩)
        refine hother key found found' ?_ ?_ <;>
          rw [List.lookup_cons, beq_eq_false_iff_ne.mpr hne]
        · exact hfound
        · exact hfound'

end
end Dictionary
