import Mathlib.Logic.Function.Basic

/-!
# A key store with expiry and conditional writes

Keys hold a value and a deadline. A key is taken only when it is free, and prolonged or deleted only
when it holds the value the caller gives; every key is gone once its deadline has come. Next to the
value stands who took the key, which no command reads.
-/

/-- What a key holds. `owner` is a record of who took it. -/
structure StoreEntry (Value Owner : Type) where
  value : Value
  deadline : Nat
  owner : Owner
deriving DecidableEq

abbrev ExpiringStore (Key Value Owner : Type) : Type := Key → Option (StoreEntry Value Owner)

namespace ExpiringStore

variable {Key Value Owner : Type} [DecidableEq Key] [DecidableEq Value]

def empty : ExpiringStore Key Value Owner := fun _ => none

variable (store : ExpiringStore Key Value Owner) (key : Key) (value : Value)

/-- The key holds this value. -/
def holds : Bool := (store key).any fun entry => decide (entry.value = value)

/-- `SET key value EX NX` -/
def setNx (deadline : Nat) (owner : Owner) : Bool × ExpiringStore Key Value Owner :=
  if (store key).isSome then (false, store)
  else (true, Function.update store key (some ⟨value, deadline, owner⟩))

/-- `SET key value EX IFEQ value`, and `EXPIRE` of a key that holds the value. -/
def touchIfEq (deadline : Nat) : Bool × ExpiringStore Key Value Owner :=
  if store.holds key value then
    (true, Function.update store key ((store key).map fun entry =>
      { entry with deadline := deadline }))
  else (false, store)

/-- `DELEX key IFEQ value` -/
def delIfEq : Bool × ExpiringStore Key Value Owner :=
  if store.holds key value then (true, Function.update store key none) else (false, store)

/-- The keys whose deadline has not come yet. -/
def expire (now : Nat) : ExpiringStore Key Value Owner := fun key =>
  (store key).filter fun entry => now < entry.deadline

variable {store key value} {now : Nat} {entry : StoreEntry Value Owner}

omit [DecidableEq Key] in
theorem holds_iff : store.holds key value = true ↔
    ∃ entry, store key = some entry ∧ entry.value = value := by
  simp [holds, Option.any_eq_true]

theorem touchIfEq_fst (deadline : Nat) :
    (store.touchIfEq key value deadline).1 = store.holds key value := by
  unfold touchIfEq
  by_cases hholds : store.holds key value = true
  · simp [hholds]
  · simp [hholds]

omit [DecidableEq Key] [DecidableEq Value] in
theorem expire_eq_some :
    store.expire now key = some entry ↔ store key = some entry ∧ now < entry.deadline := by
  simp [expire, Option.filter_eq_some_iff]

end ExpiringStore

/-! ### Commands -/

/-- A conditional write of a key. -/
inductive StoreCommand (Key Value : Type)
  | setNx (key : Key) (value : Value)
  | touchIfEq (key : Key) (value : Value)
  | delIfEq (key : Key) (value : Value)

namespace StoreCommand

variable {Key Value Owner : Type} [DecidableEq Key] [DecidableEq Value]

/-- The command, for a caller that writes this deadline. -/
def run (store : ExpiringStore Key Value Owner) (deadline : Nat) (owner : Owner) :
    StoreCommand Key Value → Bool × ExpiringStore Key Value Owner
  | setNx key value => store.setNx key value deadline owner
  | touchIfEq key value => store.touchIfEq key value deadline
  | delIfEq key value => store.delIfEq key value

/-- What a command may do to a key, and what it answers then. -/
inductive Steps (deadline : Nat) (owner : Owner) (key : Key) : StoreCommand Key Value →
    Option (StoreEntry Value Owner) → Bool → Option (StoreEntry Value Owner) → Prop
  | other (command : StoreCommand Key Value) (entry : Option (StoreEntry Value Owner))
      (answer : Bool) (hother : ∀ value, command ≠ .setNx key value ∧
        command ≠ .touchIfEq key value ∧ command ≠ .delIfEq key value) :
      Steps deadline owner key command entry answer entry
  | taken (value : Value) :
      Steps deadline owner key (.setNx key value) none true (some ⟨value, deadline, owner⟩)
  | busy (value : Value) (entry : StoreEntry Value Owner) :
      Steps deadline owner key (.setNx key value) (some entry) false (some entry)
  | touched (entry : StoreEntry Value Owner) :
      Steps deadline owner key (.touchIfEq key entry.value) (some entry) true
        (some { entry with deadline := deadline })
  | deleted (entry : StoreEntry Value Owner) :
      Steps deadline owner key (.delIfEq key entry.value) (some entry) true none
  | refused (command : StoreCommand Key Value) (value : Value)
      (hcommand : command = .touchIfEq key value ∨ command = .delIfEq key value)
      (entry : Option (StoreEntry Value Owner)) (hentry : ∀ held ∈ entry, held.value ≠ value) :
      Steps deadline owner key command entry false entry

section

variable (store : ExpiringStore Key Value Owner) (deadline : Nat) (owner : Owner) (key target : Key)
  (value : Value)

omit [DecidableEq Value] in
theorem setNx_steps : (setNx target value).Steps deadline owner key (store key)
    (store.setNx target value deadline owner).1 ((store.setNx target value deadline owner).2 key) := by
  unfold ExpiringStore.setNx
  by_cases hkey : key = target
  · subst hkey
    cases hentry : store key with
    | none =>
        simp only [Option.isSome_none, Bool.false_eq_true, if_false, Function.update_self]
        exact .taken value
    | some entry =>
        simp only [Option.isSome_some, if_true, hentry]
        exact .busy value entry
  · have hother : ∀ other : Value, setNx target value ≠ .setNx key other := by
      simp [Ne.symm hkey]
    split
    · exact .other _ _ _ fun other => ⟨hother other, nofun, nofun⟩
    · simp only [Function.update_of_ne hkey]
      exact .other _ _ _ fun other => ⟨hother other, nofun, nofun⟩

theorem touchIfEq_steps : (touchIfEq target value).Steps deadline owner key (store key)
    (store.touchIfEq target value deadline).1 ((store.touchIfEq target value deadline).2 key) := by
  unfold ExpiringStore.touchIfEq
  by_cases hkey : key = target
  · subst hkey
    split
    · rename_i hholds
      obtain ⟨entry, hentry, rfl⟩ := ExpiringStore.holds_iff.mp hholds
      simp only [hentry, Function.update_self, Option.map_some]
      exact .touched entry
    · rename_i hholds
      refine .refused _ value (.inl rfl) _ fun held hheld hvalue => hholds ?_
      exact ExpiringStore.holds_iff.mpr ⟨held, hheld, hvalue⟩
  · have hother : ∀ other : Value, touchIfEq target value ≠ .touchIfEq key other := by
      simp [Ne.symm hkey]
    split
    · simp only [Function.update_of_ne hkey]
      exact .other _ _ _ fun other => ⟨nofun, hother other, nofun⟩
    · exact .other _ _ _ fun other => ⟨nofun, hother other, nofun⟩

theorem delIfEq_steps : (delIfEq target value).Steps deadline owner key (store key)
    (store.delIfEq target value).1 ((store.delIfEq target value).2 key) := by
  unfold ExpiringStore.delIfEq
  by_cases hkey : key = target
  · subst hkey
    split
    · rename_i hholds
      obtain ⟨entry, hentry, rfl⟩ := ExpiringStore.holds_iff.mp hholds
      simp only [hentry, Function.update_self]
      exact .deleted entry
    · rename_i hholds
      refine .refused _ value (.inr rfl) _ fun held hheld hvalue => hholds ?_
      exact ExpiringStore.holds_iff.mpr ⟨held, hheld, hvalue⟩
  · have hother : ∀ other : Value, delIfEq target value ≠ .delIfEq key other := by
      simp [Ne.symm hkey]
    split
    · simp only [Function.update_of_ne hkey]
      exact .other _ _ _ fun other => ⟨nofun, nofun, hother other⟩
    · exact .other _ _ _ fun other => ⟨nofun, nofun, hother other⟩

/-- **Inversion of a command.** -/
theorem run_steps (command : StoreCommand Key Value) :
    command.Steps deadline owner key (store key) (command.run store deadline owner).1
      ((command.run store deadline owner).2 key) := by
  cases command with
  | setNx target value => exact setNx_steps store deadline owner key target value
  | touchIfEq target value => exact touchIfEq_steps store deadline owner key target value
  | delIfEq target value => exact delIfEq_steps store deadline owner key target value

/-- A free key stays free unless it is taken. -/
theorem run_of_none {store : ExpiringStore Key Value Owner} {deadline : Nat} {owner : Owner}
    {key : Key} {command : StoreCommand Key Value} (hfree : store key = none) :
    (command.run store deadline owner).2 key = none ∨
      (∃ value, command = .setNx key value) ∧ (command.run store deadline owner).1 = true := by
  have hsteps := run_steps store deadline owner key command
  rw [hfree] at hsteps
  generalize (command.run store deadline owner).1 = answer at hsteps ⊢
  generalize (command.run store deadline owner).2 key = entry at hsteps ⊢
  cases hsteps with
  | other | refused => exact .inl rfl
  | taken value => exact .inr ⟨⟨value, rfl⟩, rfl⟩

/-- What a key holds after a command it has held before, with another deadline perhaps, or has been
taken with. -/
theorem run_eq_some {command : StoreCommand Key Value} {entry : StoreEntry Value Owner}
    (h : (command.run store deadline owner).2 key = some entry) :
    (∃ before, store key = some before ∧ before.value = entry.value ∧
        before.owner = entry.owner) ∨
      (command = .setNx key entry.value ∧ entry.owner = owner) := by
  have hsteps := run_steps store deadline owner key command
  generalize (command.run store deadline owner).1 = answer at hsteps
  rw [h] at hsteps
  generalize store key = before at hsteps ⊢
  generalize hafter : some entry = after at hsteps
  cases hsteps with
  | other | refused => exact .inl ⟨entry, hafter.symm, rfl, rfl⟩
  | busy value held =>
      obtain rfl := Option.some.inj hafter
      exact .inl ⟨entry, rfl, rfl, rfl⟩
  | taken value =>
      obtain rfl := Option.some.inj hafter
      exact .inr ⟨rfl, rfl⟩
  | touched held =>
      obtain rfl := Option.some.inj hafter
      exact .inl ⟨held, rfl, rfl, rfl⟩
  | deleted held => cases hafter

/-- A key that is held stays held unless it is deleted. -/
theorem run_isSome {command : StoreCommand Key Value}
    (hdel : ∀ value, command ≠ .delIfEq key value) (hheld : (store key).isSome = true) :
    ((command.run store deadline owner).2 key).isSome = true := by
  have hsteps := run_steps store deadline owner key command
  generalize (command.run store deadline owner).1 = answer at hsteps
  generalize (command.run store deadline owner).2 key = after at hsteps ⊢
  generalize store key = before at hsteps hheld
  cases hsteps with
  | other | refused => exact hheld
  | taken | busy | touched => rfl
  | deleted entry => exact absurd rfl (hdel entry.value)

/-- A key that is held is changed by its own value only. -/
theorem run_changed {command : StoreCommand Key Value} {entry : StoreEntry Value Owner}
    (hentry : store key = some entry)
    (hchanged : (command.run store deadline owner).2 key ≠ some entry) :
    command = .touchIfEq key entry.value ∨ command = .delIfEq key entry.value := by
  have hsteps := run_steps store deadline owner key command
  generalize (command.run store deadline owner).1 = answer at hsteps
  generalize (command.run store deadline owner).2 key = after at hsteps hchanged
  rw [hentry] at hsteps
  generalize hbefore : some entry = before at hsteps
  cases hsteps with
  | other | refused | busy => exact absurd hbefore.symm hchanged
  | taken value => cases hbefore
  | touched held =>
      obtain rfl := Option.some.inj hbefore
      exact .inl rfl
  | deleted held =>
      obtain rfl := Option.some.inj hbefore
      exact .inr rfl

end
end StoreCommand
